import TivaAws.Foundation.Table
import TivaAws.Mqtt.RemainingLength
import TivaAws.Mqtt.Topic

/-!
# Subscription manager

The functions that add and remove entries of the subscription manager. A removal goes by the
text of the filter, also where the filter is read back from a SUBSCRIBE or UNSUBSCRIBE packet.
-/

namespace TivaAws.Mqtt

open Table

/-- The test of `prvRemoveSubscription`: an in-use entry with the same length and bytes. -/
def MQTTSubscription.isFor (topic : List UInt8) (subscription : MQTTSubscription) : Bool :=
  subscription.inUse && subscription.topicFilter == topic

/-- `prvRemoveSubscription`: free the first in-use entry for the topic, if there is one. -/
def prvRemoveSubscription (topic : List UInt8) (manager : MQTTSubscriptionManager) :
    MQTTSubscriptionManager :=
  match firstIndex (MQTTSubscription.isFor topic) manager.subscriptions with
  | none => manager
  | some x =>
      { subscriptions :=
          manager.subscriptions.set x
            { getElem manager.subscriptions x x.isLt with inUse := false } x.isLt
        inUseSubscriptions := manager.inUseSubscriptions - 1 }

/-- `prvStoreSubscription`: whether the subscription was stored, and the manager afterwards. -/
def prvStoreSubscription (topic : List UInt8) (publishCallbackContext : CallbackContext)
    (publishCallback : Option FunctionPointer) (manager : MQTTSubscriptionManager) :
    Bool × MQTTSubscriptionManager :=
  if manager.inUseSubscriptions < UInt32.ofNat subscriptionManagerMaxSubscriptions then
    if topic.length ≤ subscriptionManagerMaxTopicLength then
      let topicFilterType := prvGetTopicFilterType topic
      if topicFilterType ≠ .invalid then
        let manager := prvRemoveSubscription topic manager
        match firstIndex (fun subscription => !subscription.inUse) manager.subscriptions with
        | none => (false, manager)
        | some x =>
            (true,
              { subscriptions := manager.subscriptions.set x
                  { topicFilter := topic, publishCallbackContext, publishCallback,
                    inUse := true, topicFilterType } x.isLt
                inUseSubscriptions := manager.inUseSubscriptions + 1 })
      else (false, manager)
    else (false, manager)
  else (false, manager)

/-- The topic filter of a SUBSCRIBE or UNSUBSCRIBE packet, read back from its buffer. -/
def requestedTopicFilter (buffer : MQTTBuffer) : List UInt8 :=
  let remainingLengthFieldBytes :=
    (prvDecodeRemainingLength fun i => buffer.data (1 + i)).1
  let topicLength := word16 (buffer.data (adjustOffset 4 remainingLengthFieldBytes))
    (buffer.data (adjustOffset 5 remainingLengthFieldBytes))
  buffer.data.readBytes (adjustOffset 6 remainingLengthFieldBytes) topicLength.toNat

/-- `prvRemoveSubscriptionForSubscribeOrUnsubscribeBuffer`. -/
def prvRemoveSubscriptionForSubscribeOrUnsubscribeBuffer (buffer : MQTTBuffer)
    (manager : MQTTSubscriptionManager) : MQTTSubscriptionManager :=
  prvRemoveSubscription (requestedTopicFilter buffer) manager

/-- Free every entry, as `MQTT_Init` and `prvResetMQTTContext` do. -/
def MQTTSubscriptionManager.clear (manager : MQTTSubscriptionManager) :
    MQTTSubscriptionManager where
  subscriptions := manager.subscriptions.map fun subscription =>
    { subscription with inUse := false }
  inUseSubscriptions := 0

end TivaAws.Mqtt
