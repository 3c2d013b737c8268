import TivaAws.Mqtt.Subscription

/-!
# Context primitives of the MQTT core library

The functions every operation is built from: getting and returning buffers, sending, reading the
clock, reporting events and resetting the context. A `Session` is a context together with the
world outside it. The functions the user registers see and change the world only, which is what
it means that callbacks do not re-enter the library. `outputs` lists what the library does to
its surroundings while one operation runs.
-/

namespace TivaAws.Mqtt

open Table

/-- The functions registered with the library: `MQTTInitParams_t`, with the behaviour of the
publish callbacks that subscriptions name by pointer. -/
structure MQTTInitParams (W : Type) where
  /-- `pxCallback`, which may be `NULL`. -/
  callback : Option (MQTTEvent → W → Bool × W)
  /-- `pxMQTTSendFxn`: the number of bytes actually transmitted. -/
  send : List UInt8 → W → Nat × W
  /-- `pxGetTicksFxn`, which may be `NULL`. -/
  getTicks : Option (W → UInt64 × W)
  /-- `pxGetBufferFxn`. -/
  getBuffer : (requested : Nat) → W → Option (PoolBuffer requested) × W
  /-- `pxReturnBufferFxn`. -/
  returnBuffer : MQTTBufferHandle → W → W
  /-- The topic specific callbacks. -/
  publishCallback : FunctionPointer → CallbackContext → MQTTPublishData → W → Bool × W

/-- What the library does to its surroundings. `access` and `handled` are not visible outside:
they mark the bytes of a received packet a handler reads or hands on, and the whole packets that
reach a handler. -/
inductive MQTTOutput where
  | obtained (handle : MQTTBufferHandle)
  | refused (requested : Nat)
  | returned (handle : MQTTBufferHandle)
  | taken (handle : MQTTBufferHandle)
  | ticks (count : UInt64)
  | sent (data : List UInt8) (count : Nat)
  | event (event : MQTTEvent)
  | eventCallback (event : MQTTEvent) (result : Bool)
  | publishCallback (callback : FunctionPointer) (context : CallbackContext)
      (publish : MQTTPublishData) (result : Bool)
  | access (offset count : Nat)
  | handled (packet : List UInt8)

/-- A context, the world around it and the outputs of the operation that is running. -/
structure Session (W : Type) where
  context : MQTTContext
  world : W
  outputs : List MQTTOutput

variable {W : Type}

namespace Session

/-- Append an output. -/
def emit (output : MQTTOutput) (s : Session W) : Session W :=
  { s with outputs := s.outputs ++ [output] }

/-- Change the context only. -/
def update (change : MQTTContext → MQTTContext) (s : Session W) : Session W :=
  { s with context := change s.context }

end Session

variable (user : MQTTInitParams W)

/-! ## Buffers -/

/-- `prvGetFreeBuffer`. -/
def prvGetFreeBuffer (bufferLength : Nat) (s : Session W) : Option MQTTBuffer × Session W :=
  let requested := (bufferLength + sizeofMQTTBufferMetadata) % 2 ^ 32
  let answer := user.getBuffer requested s.world
  match answer.1 with
  | none => (none, Session.emit (.refused requested) { s with world := answer.2 })
  | some buffer =>
      (some buffer.init, Session.emit (.obtained buffer.handle) { s with world := answer.2 })

/-- `prvReturnBuffer`: nothing for `NULL`; otherwise unlink the buffer if it is linked and give it
back to the pool. -/
def prvReturnBuffer (handle : Option MQTTBufferHandle) (s : Session W) : Session W :=
  match handle with
  | none => s
  | some handle =>
      Session.emit (.returned handle)
        { s with
          context.txBufferList :=
            s.context.txBufferList.eraseP fun buffer => buffer.handle == handle
          world := user.returnBuffer handle s.world }

/-- The handle in `xRxBuffer`. -/
def MQTTContext.rxHandle (context : MQTTContext) : Option MQTTBufferHandle :=
  context.rxBuffer.map MQTTBuffer.handle

/-- The control byte of the packet in a buffer. -/
def MQTTBuffer.controlByte (buffer : MQTTBuffer) : UInt8 := buffer.data 0

/-- The packet type in the top nibble of the control byte. -/
def MQTTBuffer.packetType (buffer : MQTTBuffer) : UInt8 := buffer.controlByte &&& topNibbleMask

/-- The flags in the lower nibble of the control byte. -/
def MQTTBuffer.packetFlags (buffer : MQTTBuffer) : UInt8 := buffer.controlByte &&& lowerNibbleMask

/-- `prvPacketTypeFlagsGetTxBuffer`. -/
def prvPacketTypeFlagsGetTxBuffer (packetType flags : UInt8) (context : MQTTContext) :
    Option MQTTBuffer :=
  context.txBufferList.find? fun buffer =>
    buffer.packetType == packetType && buffer.packetFlags == flags

/-- `prvPacketTypeFlagsIdentifierGetTxBuffer`. -/
def prvPacketTypeFlagsIdentifierGetTxBuffer (packetType flags : UInt8)
    (packetIdentifier : UInt16) (context : MQTTContext) : Option MQTTBuffer :=
  context.txBufferList.find? fun buffer =>
    buffer.packetType == packetType && buffer.packetFlags == flags &&
      buffer.bufferState.packetIdentifier == packetIdentifier

/-- `prvPacketTypeIdentifierGetTxBuffer`. -/
def prvPacketTypeIdentifierGetTxBuffer (packetType : UInt8) (packetIdentifier : UInt16)
    (context : MQTTContext) : Option MQTTBuffer :=
  context.txBufferList.find? fun buffer =>
    buffer.packetType == packetType && buffer.bufferState.packetIdentifier == packetIdentifier

/-! ## Reset -/

/-- `prvResetRxMessageState`. -/
def prvResetRxMessageState (context : MQTTContext) : MQTTContext :=
  { context with
    rxMessageState :=
      { rxNextByte := .packetType, rxMessageAction := .store,
        remainingLengthFieldBytes := 0, totalMessageLength := 0 }
    rxMessageReceivedLength := 0
    rxBuffer := none }

/-- The loop of `prvResetMQTTContext` over the Tx list. -/
def returnTxBuffers (buffers : List MQTTBuffer) (s : Session W) : Session W :=
  buffers.foldl (fun s buffer => prvReturnBuffer user (some buffer.handle) s) s

/-- `prvResetMQTTContext`. -/
def prvResetMQTTContext (s : Session W) : Session W :=
  let s := s.update fun context => { context with connectionState := .notConnected }
  let s := returnTxBuffers user s.context.txBufferList s
  let s := prvReturnBuffer user s.context.rxHandle s
  let s := s.update prvResetRxMessageState
  s.update fun context =>
    { context with subscriptionManager := context.subscriptionManager.clear }

/-! ## Time -/

/-- `prvGetCurrentTickCount`: zero when the user has registered no clock. -/
def prvGetCurrentTickCount (s : Session W) : UInt64 × Session W :=
  match user.getTicks with
  | none => (0, s)
  | some getTicks =>
      let answer := getTicks s.world
      (answer.1, Session.emit (.ticks answer.1) { s with world := answer.2 })

/-- `prvIsTimeElapsed`: whether the time has elapsed, with the new recorded and remaining ticks.
The elapsed ticks are cut to 32 bits. -/
def prvIsTimeElapsed (recordedTickCount currentTickCount : UInt64) (remainingTicks : UInt32) :
    Bool × UInt64 × UInt32 :=
  if recordedTickCount = 0 then (false, currentTickCount, remainingTicks)
  else
    let elapsedTicks := (currentTickCount - recordedTickCount).toUInt32
    if elapsedTicks ≥ remainingTicks then (true, currentTickCount, 0)
    else (false, currentTickCount, remainingTicks - elapsedTicks)

/-- Restart the keep-alive timer from a tick count, as every successful send does. -/
def MQTTContext.restartKeepAlive (tickCount : UInt64) (context : MQTTContext) : MQTTContext :=
  { context with
    lastSentMessageTimestamp := tickCount
    nextPeriodicInvokeTicks := context.keepAliveActualIntervalTicks }

/-! ## Sending -/

/-- `prvSendData`. -/
def prvSendData (data : List UInt8) (s : Session W) : MQTTReturnCode × Session W :=
  let answer := user.send data s.world
  let s := Session.emit (.sent data answer.1) { s with world := answer.2 }
  if answer.1 = data.length then
    let now := prvGetCurrentTickCount user s
    (.success, now.2.update (MQTTContext.restartKeepAlive now.1))
  else (.sendFailed, s)

/-! ## Events -/

/-- The loops of `prvInvokeSubscriptionCallbacks`: call the callbacks of the entries that match,
until one takes the buffer. Returns whether the buffer was taken and whether any callback was
called. -/
def invokeMatching (publish : MQTTPublishData) (isMatch : MQTTSubscription → Bool) :
    List MQTTSubscription → Bool → Session W → Bool × Bool × Session W
  | [], invoked, s => (false, invoked, s)
  | subscription :: rest, invoked, s =>
      if isMatch subscription then
        match subscription.publishCallback with
        | none => invokeMatching publish isMatch rest invoked s
        | some callback =>
            let answer := user.publishCallback callback
              subscription.publishCallbackContext publish s.world
            let s := Session.emit
              (.publishCallback callback subscription.publishCallbackContext publish answer.1)
              { s with world := answer.2 }
            if answer.1 then (true, true, s)
            else invokeMatching publish isMatch rest true s
      else invokeMatching publish isMatch rest invoked s

/-- The test of the first loop: a filter without wild cards that equals the topic. -/
def MQTTSubscription.matchesExactly (topic : List UInt8) (subscription : MQTTSubscription) :
    Bool :=
  subscription.inUse && subscription.topicFilterType == .simple &&
    subscription.topicFilter == topic

/-- The test of the second loop: a filter with wild cards that matches the topic. -/
def MQTTSubscription.matchesWildCard (topic : List UInt8) (subscription : MQTTSubscription) :
    Bool :=
  subscription.inUse && subscription.topicFilterType == .wildCard &&
    prvDoesTopicMatchTopicFilter topic subscription.topicFilter

/-- `prvInvokeSubscriptionCallbacks`: whether the buffer was taken, and whether any callback was
called. -/
def prvInvokeSubscriptionCallbacks (publish : MQTTPublishData) (s : Session W) :
    Bool × Bool × Session W :=
  let entries := s.context.subscriptionManager.subscriptions.toList
  let exact := invokeMatching user publish (MQTTSubscription.matchesExactly publish.topic)
    entries false s
  if exact.1 then exact
  else
    invokeMatching user publish (MQTTSubscription.matchesWildCard publish.topic)
      entries exact.2.1 exact.2.2

/-- The last step of `prvInvokeCallback`: the generic callback, if the user has registered one. -/
def invokeEventCallback (event : MQTTEvent) (s : Session W) : Bool × Session W :=
  match user.callback with
  | none => (false, s)
  | some callback =>
      let answer := callback event s.world
      (answer.1, Session.emit (.eventCallback event answer.1) { s with world := answer.2 })

/-- `prvInvokeCallback`: whether the user took the ownership of the buffer. The generic callback
is for events other than a publish and for a publish no subscription callback was called for. -/
def prvInvokeCallback (event : MQTTEvent) (s : Session W) : Bool × Session W :=
  let s := s.emit (.event event)
  match event with
  | .publish publish =>
      let answer := prvInvokeSubscriptionCallbacks user publish s
      if answer.2.1 then (answer.1, answer.2.2)
      else invokeEventCallback user event answer.2.2
  | _ => invokeEventCallback user event s

/-- Reset the context and report the disconnect: the sequence every malformed packet, every
refused connection and every connect timeout goes through. -/
def resetAndReport (reason : MQTTDisconnectReason) (s : Session W) : Session W :=
  (prvInvokeCallback user (.clientDisconnected reason) (prvResetMQTTContext user s)).2

end TivaAws.Mqtt
