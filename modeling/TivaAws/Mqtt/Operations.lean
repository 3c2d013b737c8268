import TivaAws.Mqtt.Context

/-!
# Operations of the MQTT core library

The public functions other than `MQTT_ParseReceivedData`. The four operations that wait for an
acknowledgment share their way of getting, linking, filling and sending a buffer; each has its
own writer, which writes the packet as the source does, byte range by byte range.
-/

namespace TivaAws.Mqtt

open ByteMemory

variable {W : Type} (user : MQTTInitParams W)

/-! ## Init -/

/-- `MQTT_Init` on whatever the memory of the context holds. -/
def mqttInit (context : MQTTContext) : MQTTContext :=
  let context := prvResetRxMessageState { context with txBufferList := [] }
  { context with
    connectionState := .notConnected
    subscriptionManager := context.subscriptionManager.clear }

/-! ## Packets -/

/-- `mqttSTRLEN` stored in a `uint16_t`. -/
def MQTTString.encodedLength (string : MQTTString) : Nat := (string.bytes.length + 2) % 2 ^ 16

/-- `prvWriteString`: write the length and the bytes at `destination` unless they would reach past
`lastByte`, and return where the next byte goes. -/
def prvWriteString (memory : ByteMemory) (destination lastByte : Nat) (string : MQTTString) :
    Nat × ByteMemory :=
  let length := string.bytes.length
  if destination + (length + 2) - 1 ≤ lastByte then
    let memory := memory.writeBytes destination [UInt8.ofNat (length >>> 8)]
    let memory := memory.writeBytes (destination + 1) [UInt8.ofNat length]
    (destination + 2 + length, memory.writeBytes (destination + 2) string.bytes)
  else (destination, memory)

/-- `memset` of the whole data part of a buffer to zero. -/
def MQTTBuffer.cleared (buffer : MQTTBuffer) : ByteMemory :=
  buffer.data.writeBytes 0 (List.replicate buffer.effectiveLength 0)

/-- The offset of `pucLastByteInBuffer`. -/
def MQTTBuffer.lastByte (buffer : MQTTBuffer) : Nat := buffer.effectiveLength - 1

/-- The fixed header: the control byte and the "Remaining Length", whose size is returned. -/
def writeFixedHeader (controlByte : UInt8) (remainingLength : Nat) (buffer : MQTTBuffer) :
    Nat × ByteMemory :=
  prvEncodeRemainingLength (buffer.cleared.writeBytes 0 [controlByte]) remainingLength 1
    buffer.lastByte

/-- The two bytes of a packet identifier. -/
def writePacketIdentifier (memory : ByteMemory) (offset : Nat) (packetIdentifier : UInt16) :
    ByteMemory :=
  let memory := memory.writeBytes offset [(packetIdentifier >>> 8).toUInt8]
  memory.writeBytes (offset + 1) [packetIdentifier.toUInt8]

/-- `ucDefaultConnectVariableHeader`. -/
def defaultConnectVariableHeader : List UInt8 :=
  [0, 4, 'M'.toUInt8, 'Q'.toUInt8, 'T'.toUInt8, 'T'.toUInt8, protocolLevel,
    connectCleanSessionFlag, 0, 0]

/-- The "Remaining Length" of a CONNECT packet. -/
def MQTTConnectParams.remainingLength (params : MQTTConnectParams) : Nat :=
  defaultConnectVariableHeader.length + params.clientId.encodedLength +
    if params.userName.bytes.length > 0 then params.userName.encodedLength else 0

/-- The CONNECT packet. -/
def MQTTConnectParams.write (params : MQTTConnectParams) (buffer : MQTTBuffer) : ByteMemory :=
  let header := writeFixedHeader (controlCONNECT ||| flagsCONNECT) params.remainingLength buffer
  let offset := fun x => adjustOffset x header.1
  let memory := header.2.writeBytes (offset 2) defaultConnectVariableHeader
  let memory :=
    if params.userName.bytes.length > 0 then
      memory.writeBytes (offset 9) [memory (offset 9) ||| connectUserNameFlag]
    else memory
  let memory := memory.writeBytes (offset 10) [(params.keepAliveIntervalSeconds >>> 8).toUInt8]
  let memory := memory.writeBytes (offset 11) [params.keepAliveIntervalSeconds.toUInt8]
  let clientId := prvWriteString memory (offset 12) buffer.lastByte params.clientId
  if params.userName.bytes.length > 0 then
    (prvWriteString clientId.2 clientId.1 buffer.lastByte params.userName).2
  else clientId.2

/-- The "Remaining Length" of a SUBSCRIBE packet. -/
def MQTTSubscribeParams.remainingLength (params : MQTTSubscribeParams) : Nat :=
  2 + params.topic.encodedLength + 1

/-- The SUBSCRIBE packet. -/
def MQTTSubscribeParams.write (params : MQTTSubscribeParams) (buffer : MQTTBuffer) : ByteMemory :=
  let header :=
    writeFixedHeader (controlSUBSCRIBE ||| flagsSUBSCRIBE) params.remainingLength buffer
  let memory := writePacketIdentifier header.2 (adjustOffset 2 header.1) params.packetIdentifier
  let topic := prvWriteString memory (adjustOffset 4 header.1) buffer.lastByte params.topic
  topic.2.writeBytes topic.1 [params.qos.toUInt8]

/-- The "Remaining Length" of an UNSUBSCRIBE packet. -/
def MQTTUnsubscribeParams.remainingLength (params : MQTTUnsubscribeParams) : Nat :=
  2 + params.topic.encodedLength

/-- The UNSUBSCRIBE packet. -/
def MQTTUnsubscribeParams.write (params : MQTTUnsubscribeParams) (buffer : MQTTBuffer) :
    ByteMemory :=
  let header :=
    writeFixedHeader (controlUNSUBSCRIBE ||| flagsUNSUBSCRIBE) params.remainingLength buffer
  let memory := writePacketIdentifier header.2 (adjustOffset 2 header.1) params.packetIdentifier
  (prvWriteString memory (adjustOffset 4 header.1) buffer.lastByte params.topic).2

/-- The "Remaining Length" of a PUBLISH packet, computed with 32 bits. -/
def MQTTPublishParams.remainingLength (params : MQTTPublishParams) : Nat :=
  (params.topic.encodedLength + (if params.qos = .qos0 then 0 else 2) + params.data.length) %
    2 ^ 32

/-- The PUBLISH packet. -/
def MQTTPublishParams.write (params : MQTTPublishParams) (buffer : MQTTBuffer) : ByteMemory :=
  let header := writeFixedHeader (controlPUBLISH ||| (params.qos.toUInt8 <<< 1))
    params.remainingLength buffer
  let topic := prvWriteString header.2 (adjustOffset 2 header.1) buffer.lastByte params.topic
  if params.qos ≠ .qos0 then
    (writePacketIdentifier topic.2 topic.1 params.packetIdentifier).writeBytes (topic.1 + 2)
      params.data
  else topic.2.writeBytes topic.1 params.data

/-! ## Requests -/

/-- What CONNECT, SUBSCRIBE, UNSUBSCRIBE and PUBLISH share: get a buffer for the packet, link it,
record the time and write the packet. -/
def createPacket (remainingLength : Nat) (timeoutTicks : UInt32) (packetIdentifier : UInt16)
    (write : MQTTBuffer → ByteMemory) (s : Session W) :
    MQTTReturnCode × Option MQTTBuffer × Session W :=
  let remainingLengthFieldBytes := prvSizeOfRemainingLength remainingLength
  if remainingLengthFieldBytes > 0 then
    let messageLength := totalMessageLength remainingLengthFieldBytes remainingLength
    let answer := prvGetFreeBuffer user messageLength s
    match answer.1 with
    | none => (.noFreeBuffer, none, answer.2)
    | some buffer =>
        let now := prvGetCurrentTickCount user answer.2
        let buffer : MQTTBuffer :=
          { buffer with
            bufferState := { recordedTickCount := now.1, timeoutTicks, packetIdentifier }
            dataLength := messageLength
            data := write buffer }
        (.success, some buffer,
          now.2.update fun context =>
            { context with txBufferList := buffer :: context.txBufferList })
  else (.failure, none, s)

/-- Transmit a packet that was created. -/
def transmitPacket (created : MQTTReturnCode × Option MQTTBuffer × Session W) :
    MQTTReturnCode × Session W :=
  match created with
  | (.success, some buffer, s) => prvSendData user buffer.packet s
  | (returnCode, _, s) => (returnCode, s)

/-- The end of the four operations: transmit the packet, and return its buffer if there was an
error or no acknowledgment will follow. -/
def submitPacket (remainingLength : Nat) (timeoutTicks : UInt32) (packetIdentifier : UInt16)
    (write : MQTTBuffer → ByteMemory) (acknowledged : Bool) (s : Session W) :
    MQTTReturnCode × Session W :=
  let created := createPacket user remainingLength timeoutTicks packetIdentifier write s
  let sent := transmitPacket user created
  if sent.1 ≠ .success ∨ acknowledged = false then
    (sent.1, prvReturnBuffer user (created.2.1.map MQTTBuffer.handle) sent.2)
  else sent

/-- `MQTT_Connect`. -/
def mqttConnect (params : MQTTConnectParams) (s : Session W) : MQTTReturnCode × Session W :=
  match s.context.connectionState with
  | .connected => (.clientAlreadyConnected, s)
  | .connectionInProgress => (.clientConnectionInProgress, s)
  | .notConnected =>
      let s := s.update fun context =>
        { context with
          keepAliveActualIntervalTicks := params.keepAliveActualIntervalTicks
          pingRequestTimeoutTicks := params.pingRequestTimeoutTicks }
      let sent := submitPacket user params.remainingLength params.timeoutTicks
        params.packetIdentifier params.write true s
      if sent.1 ≠ .success then sent
      else
        (sent.1,
          sent.2.update fun context => { context with connectionState := .connectionInProgress })

/-- `ucDisconnectPacket`. -/
def disconnectPacket : List UInt8 := [controlDISCONNECT, 0]

/-- `MQTT_Disconnect`. The user is told before the context is reset. -/
def mqttDisconnect (s : Session W) : MQTTReturnCode × Session W :=
  if s.context.connectionState = .connected ∨
      s.context.connectionState = .connectionInProgress then
    let sent := prvSendData user disconnectPacket s
    let s := (prvInvokeCallback user (.clientDisconnected .userRequest) sent.2).2
    (if sent.1 ≠ .success then .sendFailed else .success, prvResetMQTTContext user s)
  else (.success, prvResetMQTTContext user s)

/-- Remove a subscription in `MQTT_Subscribe`. -/
def MQTTContext.removeSubscription (topic : List UInt8) (context : MQTTContext) : MQTTContext :=
  { context with subscriptionManager := prvRemoveSubscription topic context.subscriptionManager }

/-- `MQTT_Subscribe`. The subscription is stored before the packet is created and removed again
when the packet is not sent. -/
def mqttSubscribe (params : MQTTSubscribeParams) (s : Session W) : MQTTReturnCode × Session W :=
  if s.context.connectionState ≠ .connected then
    (.clientNotConnected, s.update (MQTTContext.removeSubscription params.topic.bytes))
  else
    let stored := prvStoreSubscription params.topic.bytes params.publishCallbackContext
      params.publishCallback s.context.subscriptionManager
    let s := s.update fun context => { context with subscriptionManager := stored.2 }
    if stored.1 then
      let sent := submitPacket user params.remainingLength params.timeoutTicks
        params.packetIdentifier params.write true s
      if sent.1 ≠ .success then
        (sent.1, sent.2.update (MQTTContext.removeSubscription params.topic.bytes))
      else sent
    else (.subscriptionManagerFull, s)

/-- `MQTT_Unsubscribe`. -/
def mqttUnsubscribe (params : MQTTUnsubscribeParams) (s : Session W) :
    MQTTReturnCode × Session W :=
  if s.context.connectionState ≠ .connected then (.clientNotConnected, s)
  else
    submitPacket user params.remainingLength params.timeoutTicks params.packetIdentifier
      params.write true s

/-- `MQTT_Publish`. No acknowledgment follows a QoS 0 publish. -/
def mqttPublish (params : MQTTPublishParams) (s : Session W) : MQTTReturnCode × Session W :=
  if s.context.connectionState ≠ .connected then (.clientNotConnected, s)
  else
    submitPacket user params.remainingLength params.timeoutTicks params.packetIdentifier
      params.write (params.qos ≠ .qos0) s

/-- `MQTT_ReturnBuffer`. -/
def mqttReturnBuffer (handle : MQTTBufferHandle) (s : Session W) : MQTTReturnCode × Session W :=
  (.success, prvReturnBuffer user (some handle) s)

/-! ## Periodic -/

/-- Record the tick count and the remaining ticks in the metadata of a buffer. -/
def MQTTBuffer.stamp (recordedTickCount : UInt64) (timeoutTicks : UInt32) (buffer : MQTTBuffer) :
    MQTTBuffer :=
  { buffer with bufferState := { buffer.bufferState with recordedTickCount, timeoutTicks } }

/-- Store the metadata of a buffer of the Tx list. -/
def storeTxBuffer (buffer : MQTTBuffer) (context : MQTTContext) : MQTTContext :=
  { context with
    txBufferList := context.txBufferList.map fun other =>
      if other.handle = buffer.handle then buffer else other }

/-- The end of an operation whose buffer has timed out, other than CONNECT. -/
def reportTimeout (buffer : MQTTBuffer) (s : Session W) : Session W :=
  let s := s.update fun context =>
    if buffer.controlByte = controlSUBSCRIBE ||| flagsSUBSCRIBE then
      { context with
        subscriptionManager := prvRemoveSubscriptionForSubscribeOrUnsubscribeBuffer
          buffer context.subscriptionManager }
    else context
  let s := (prvInvokeCallback user (.timeout buffer.bufferState.packetIdentifier) s).2
  prvReturnBuffer user (some buffer.handle) s

/-- The loop of `MQTT_Periodic` over the addresses in the Tx list: the session and
`ulNextTimeoutTicks`. -/
def periodicTxLoop (currentTickCount : UInt64) :
    List MQTTBufferHandle → UInt32 → Session W → Session W × UInt32
  | [], nextTimeoutTicks, s => (s, nextTimeoutTicks)
  | handle :: rest, nextTimeoutTicks, s =>
      match s.context.txBufferList.find? fun buffer => buffer.handle == handle with
      | none => periodicTxLoop currentTickCount rest nextTimeoutTicks s
      | some buffer =>
          let time := prvIsTimeElapsed buffer.bufferState.recordedTickCount currentTickCount
            buffer.bufferState.timeoutTicks
          let buffer := buffer.stamp time.2.1 time.2.2
          let s := s.update (storeTxBuffer buffer)
          if time.1 then
            if buffer.controlByte = controlCONNECT ||| flagsCONNECT then
              -- The reset has returned every buffer, so the loop stops here.
              (resetAndReport user .connectTimeout s, nextTimeoutTicks)
            else
              periodicTxLoop currentTickCount rest nextTimeoutTicks (reportTimeout user buffer s)
          else periodicTxLoop currentTickCount rest (min nextTimeoutTicks time.2.2) s

/-- `ucPingReqPacket`. -/
def pingReqPacket : List UInt8 := [controlPINGREQ, 0]

/-- The keep-alive part of `MQTT_Periodic` when the time has elapsed. -/
def keepAliveElapsed (s : Session W) : Session W :=
  if s.context.waitingForPingResp then
    let s := (prvInvokeCallback user .pingTimeout s).2
    s.update fun context => { context with waitingForPingResp := false }
  else
    let sent := prvSendData user pingReqPacket s
    if sent.1 = .success then
      let now := prvGetCurrentTickCount user sent.2
      now.2.update fun context =>
        { context with
          lastSentMessageTimestamp := now.1
          nextPeriodicInvokeTicks := context.pingRequestTimeoutTicks
          waitingForPingResp := true }
    else sent.2

/-- `MQTT_Periodic`: the session and the ticks until it has to be called again. -/
def mqttPeriodic (currentTickCount : UInt64) (s : Session W) : Session W × UInt32 :=
  let (s, nextTimeoutTicks) :=
    periodicTxLoop user currentTickCount (s.context.txBufferList.map MQTTBuffer.handle)
      (UInt32.ofNat (2 ^ 32 - 1)) s
  if s.context.connectionState = .connected then
    let time := prvIsTimeElapsed s.context.lastSentMessageTimestamp currentTickCount
      s.context.nextPeriodicInvokeTicks
    let s := s.update fun context =>
      { context with lastSentMessageTimestamp := time.2.1, nextPeriodicInvokeTicks := time.2.2 }
    let s := if time.1 then keepAliveElapsed user s else s
    (s, min nextTimeoutTicks s.context.nextPeriodicInvokeTicks)
  else (s, nextTimeoutTicks)

/-! ## Calls -/

/-- A call of a public function of the library. -/
inductive Op where
  | connect (params : MQTTConnectParams)
  | disconnect
  | subscribe (params : MQTTSubscribeParams)
  | unsubscribe (params : MQTTUnsubscribeParams)
  | publish (params : MQTTPublishParams)
  | periodic (currentTickCount : UInt64)
  | parseReceivedData (data : List UInt8)
  | returnBuffer (handle : MQTTBufferHandle)

end TivaAws.Mqtt
