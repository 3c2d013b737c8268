import TivaAws.Mqtt.Context

/-!
# Handlers of received packets

The `prvProcessReceived…` functions. A handler works on a complete packet, in the Rx buffer or,
for a packet without a body, in the fixed header buffer. It marks every packet byte it reads or
hands on with an `access` output.
-/

namespace TivaAws.Mqtt

open ByteMemory

variable {W : Type} (user : MQTTInitParams W)

/-- The end of the handlers that may find their packet malformed: disconnect if they did, and
return the Rx buffer. -/
def finishPacket (malformed : Bool) (s : Session W) : Session W :=
  let s := if malformed then resetAndReport user .malformedPacket s else s
  prvReturnBuffer user s.context.rxHandle s

/-! ## CONNACK -/

/-- `ucDefaultCONNACKParameters`. -/
def defaultCONNACKParameters : List UInt8 := [controlCONNACK, 2, 0, 0]

/-- The enumeration value for the return code of a CONNACK, `none` for a reserved one. -/
def connACKReturnCode (returnCode : UInt8) : Option MQTTConnACKReturnCode :=
  if returnCode = 0 then some .connectionAccepted
  else if 1 ≤ returnCode ∧ returnCode ≤ 5 then
    if returnCode = 1 then some .unacceptableProtocolVersion
    else if returnCode = 2 then some .identifierRejected
    else if returnCode = 3 then some .serverUnavailable
    else if returnCode = 4 then some .badUsernameOrPassword
    else some .unauthorized
  else none

/-- The way of an accepted connection through `prvProcessReceivedCONNACK`. -/
def acceptConnection (connect : MQTTBuffer) (s : Session W) : Session W :=
  let s := (prvInvokeCallback user
    (.connACK .connectionAccepted connect.bufferState.packetIdentifier) s).2
  let s := prvReturnBuffer user (some connect.handle) s
  let s := s.update fun context => { context with connectionState := .connected }
  let now := prvGetCurrentTickCount user s
  let s := now.2.update (MQTTContext.restartKeepAlive now.1)
  let s := s.update fun context => { context with waitingForPingResp := false }
  finishPacket user false s

/-- The way of a refused connection through `prvProcessReceivedCONNACK`. -/
def refuseConnection (connect : MQTTBuffer) (returnCode : MQTTConnACKReturnCode)
    (s : Session W) : Session W :=
  let s := (prvInvokeCallback user
    (.connACK returnCode connect.bufferState.packetIdentifier) s).2
  let s := prvReturnBuffer user (some connect.handle) s
  let s := resetAndReport user .brokerRefusedConnection s
  finishPacket user false s

/-- `prvProcessReceivedCONNACK`. The CONNECT buffer is looked up before the length of the packet
is checked. -/
def prvProcessReceivedCONNACK (rxBuffer : MQTTBuffer) (s : Session W) : Session W :=
  match prvPacketTypeFlagsGetTxBuffer controlCONNECT flagsCONNECT s.context with
  | none => finishPacket user false (prvInvokeCallback user .unexpectedConnACK s).2
  | some connect =>
      if rxBuffer.dataLength ≥ defaultCONNACKParameters.length then
        let s := s.emit (.access 0 fixedHeaderMinSize)
        if rxBuffer.data.readBytes 0 fixedHeaderMinSize =
            defaultCONNACKParameters.take fixedHeaderMinSize then
          let s := s.emit (.access 3 1)
          match connACKReturnCode (rxBuffer.data 3) with
          | some returnCode =>
              if returnCode = .connectionAccepted then acceptConnection user connect s
              else refuseConnection user connect returnCode s
          | none => finishPacket user true (prvReturnBuffer user (some connect.handle) s)
        else finishPacket user true (prvReturnBuffer user (some connect.handle) s)
      else finishPacket user true (prvReturnBuffer user (some connect.handle) s)

/-! ## SUBACK, UNSUBACK and PUBACK -/

/-- The enumeration value for the return code of a SUBACK, `none` for a reserved one. -/
def subACKReturnCode (returnCode : UInt8) : Option MQTTSubACKReturnCode :=
  if returnCode ≤ 1 ∨ returnCode = 128 then
    if returnCode = 0 then some .successQos0
    else if returnCode = 1 then some .successQos1
    else some .subACKFailure
  else none

/-- `prvProcessReceivedSUBACK`. -/
def prvProcessReceivedSUBACK (rxBuffer : MQTTBuffer) (s : Session W) : Session W :=
  let remainingLengthFieldBytes := s.context.rxMessageState.remainingLengthFieldBytes
  if rxBuffer.dataLength > adjustOffset 4 remainingLengthFieldBytes then
    let s := s.emit (.access (adjustOffset 2 remainingLengthFieldBytes) 2)
    let packetIdentifier := word16 (rxBuffer.data (adjustOffset 2 remainingLengthFieldBytes))
      (rxBuffer.data (adjustOffset 3 remainingLengthFieldBytes))
    match prvPacketTypeFlagsIdentifierGetTxBuffer controlSUBSCRIBE flagsSUBSCRIBE
        packetIdentifier s.context with
    | none => finishPacket user false (prvInvokeCallback user .unexpectedSubACK s).2
    | some subscribe =>
        let s := s.emit (.access (adjustOffset 4 remainingLengthFieldBytes) 1)
        match subACKReturnCode (rxBuffer.data (adjustOffset 4 remainingLengthFieldBytes)) with
        | some returnCode =>
            let s := (prvInvokeCallback user (.subACK returnCode packetIdentifier) s).2
            let s := s.update fun context =>
              if returnCode = .subACKFailure then
                { context with
                  subscriptionManager := prvRemoveSubscriptionForSubscribeOrUnsubscribeBuffer
                    subscribe context.subscriptionManager }
              else context
            finishPacket user false (prvReturnBuffer user (some subscribe.handle) s)
        | none => finishPacket user true s
  else finishPacket user true s

/-- UNSUBACK and PUBACK have one shape: a fixed header of two bytes, then the identifier of the
packet they acknowledge. `find` looks that packet up in the Tx list and `settle` is what its
acknowledgment changes besides. -/
def processReceivedACK (fixedHeader : List UInt8)
    (find : UInt16 → MQTTContext → Option MQTTBuffer) (unexpected : MQTTEvent)
    (acknowledged : UInt16 → MQTTEvent) (settle : MQTTBuffer → MQTTContext → MQTTContext)
    (rxBuffer : MQTTBuffer) (s : Session W) : Session W :=
  if rxBuffer.dataLength ≥ fixedHeader.length + 2 then
    let s := s.emit (.access 0 fixedHeader.length)
    if rxBuffer.data.readBytes 0 fixedHeader.length = fixedHeader then
      let remainingLengthFieldBytes := s.context.rxMessageState.remainingLengthFieldBytes
      let s := s.emit (.access (adjustOffset 2 remainingLengthFieldBytes) 2)
      let packetIdentifier := word16 (rxBuffer.data (adjustOffset 2 remainingLengthFieldBytes))
        (rxBuffer.data (adjustOffset 3 remainingLengthFieldBytes))
      match find packetIdentifier s.context with
      | none => finishPacket user false (prvInvokeCallback user unexpected s).2
      | some txBuffer =>
          let s := (prvInvokeCallback user (acknowledged packetIdentifier) s).2
          let s := s.update (settle txBuffer)
          finishPacket user false (prvReturnBuffer user (some txBuffer.handle) s)
    else finishPacket user true s
  else finishPacket user true s

/-- `prvProcessReceivedUNSUBACK`. -/
def prvProcessReceivedUNSUBACK : MQTTBuffer → Session W → Session W :=
  processReceivedACK user [controlUNSUBACK, 2]
    (prvPacketTypeFlagsIdentifierGetTxBuffer controlUNSUBSCRIBE flagsUNSUBSCRIBE)
    .unexpectedUnSubACK .unSubACK fun unsubscribe context =>
      { context with
        subscriptionManager := prvRemoveSubscriptionForSubscribeOrUnsubscribeBuffer
          unsubscribe context.subscriptionManager }

/-- `prvProcessReceivedPUBACK`. -/
def prvProcessReceivedPUBACK : MQTTBuffer → Session W → Session W :=
  processReceivedACK user [controlPUBACK, 2]
    (prvPacketTypeIdentifierGetTxBuffer controlPUBLISH)
    .unexpectedPubACK .pubACK fun _ context => context

/-! ## PINGRESP -/

/-- `ucPingRespPacket`. -/
def pingRespPacket : List UInt8 := [controlPINGRESP, 0]

/-- `prvProcessReceivedPINGRESP`; the packet is in the fixed header buffer. -/
def prvProcessReceivedPINGRESP (s : Session W) : Session W :=
  if s.context.rxMessageReceivedLength ≥ pingRespPacket.length then
    let s := s.emit (.access 0 pingRespPacket.length)
    if s.context.rxFixedHeaderBuffer.readBytes 0 pingRespPacket.length = pingRespPacket then
      if s.context.waitingForPingResp then
        let s := s.update fun context => { context with waitingForPingResp := false }
        let now := prvGetCurrentTickCount user s
        now.2.update (MQTTContext.restartKeepAlive now.1)
      else s
    else resetAndReport user .malformedPacket s
  else resetAndReport user .malformedPacket s

/-! ## PUBLISH -/

/-- `mqttPUBLISH_QoS_BITS`. -/
def publishQoSBits (controlByte : UInt8) : UInt8 := (controlByte >>> 1) &&& 0x03

/-- The QoS of a received publish, `none` for the values the library does not support. -/
def publishQoS (controlByte : UInt8) : Option MQTTQoS :=
  if publishQoSBits controlByte = 0 then some .qos0
  else if publishQoSBits controlByte = 1 then some .qos1
  else none

/-- `mqttPUBLISH_QOS0_PACKET_IDENTIFER_LENGTH` or `mqttPUBLISH_QOS1_PACKET_IDENTIFER_LENGTH`. -/
def packetIdentifierLength (qos : MQTTQoS) : Nat := if qos = .qos0 then 0 else 2

/-- The data of the publish event. Nothing here is compared with the length of the packet, so
the length of the message wraps around when the topic does not fit. -/
def receivedPublishData (qos : MQTTQoS) (rxBuffer : MQTTBuffer)
    (rxMessageState : MQTTRxMessageState) : MQTTPublishData :=
  let offset := fun x => adjustOffset x rxMessageState.remainingLengthFieldBytes
  let topicLength := (word16 (rxBuffer.data (offset 2)) (rxBuffer.data (offset 3))).toNat
  { qos
    topicOffset := offset 4
    topicLength
    dataOffset := offset 4 + topicLength + packetIdentifierLength qos
    dataLength := sub32 rxMessageState.totalMessageLength
      (offset 4 + topicLength + packetIdentifierLength qos)
    buffer := rxBuffer }

/-- `ucPUBACKPacket` with the identifier of a received publish. -/
def pubACKPacket (msb lsb : UInt8) : List UInt8 := [controlPUBACK, 2, msb, lsb]

/-- `prvProcessReceivedPublish`. -/
def prvProcessReceivedPublish (rxBuffer : MQTTBuffer) (s : Session W) : Session W :=
  match publishQoS rxBuffer.controlByte with
  | some qos =>
      let publish := receivedPublishData qos rxBuffer s.context.rxMessageState
      let s := s.emit (.access (publish.topicOffset - 2) 2)
      let identifierOffset := publish.topicOffset + publish.topicLength
      let s :=
        if qos = .qos1 then
          let s := s.emit (.access identifierOffset 2)
          (prvSendData user
            (pubACKPacket (rxBuffer.data identifierOffset) (rxBuffer.data (identifierOffset + 1)))
            s).2
        else s
      -- The topic and the message are handed to the callbacks.
      let s := s.emit (.access publish.topicOffset publish.topicLength)
      let s := s.emit (.access publish.dataOffset publish.dataLength)
      let answer := prvInvokeCallback user (.publish publish) s
      if answer.1 then answer.2.emit (.taken rxBuffer.handle)
      else prvReturnBuffer user answer.2.context.rxHandle answer.2
  | none => resetAndReport user .malformedPacket s

/-! ## Dispatch -/

/-- `prvProcessReceivedFixedHeaderOnlyMQTTPacket`. -/
def prvProcessReceivedFixedHeaderOnlyMQTTPacket (s : Session W) : Session W :=
  let s := s.emit (.handled
    (s.context.rxFixedHeaderBuffer.readBytes 0 s.context.rxMessageReceivedLength))
  let s := s.emit (.access 0 1)
  if s.context.rxFixedHeaderBuffer 0 = controlPINGRESP then prvProcessReceivedPINGRESP user s
  else resetAndReport user .malformedPacket s

/-- `prvProcessReceivedMQTTPacket`. -/
def prvProcessReceivedMQTTPacket (rxBuffer : MQTTBuffer) (s : Session W) : Session W :=
  let s := s.emit (.handled rxBuffer.packet)
  let s := s.emit (.access 0 1)
  if rxBuffer.packetType = controlPUBLISH then prvProcessReceivedPublish user rxBuffer s
  else if rxBuffer.controlByte = controlCONNACK then prvProcessReceivedCONNACK user rxBuffer s
  else if rxBuffer.controlByte = controlPUBACK then prvProcessReceivedPUBACK user rxBuffer s
  else if rxBuffer.controlByte = controlSUBACK then prvProcessReceivedSUBACK user rxBuffer s
  else if rxBuffer.controlByte = controlUNSUBACK then prvProcessReceivedUNSUBACK user rxBuffer s
  else resetAndReport user .malformedPacket s

end TivaAws.Mqtt
