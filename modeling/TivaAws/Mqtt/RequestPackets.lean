import TivaAws.Mqtt.PacketGrammar
import TivaAws.Mqtt.PublishRoundTrip
import TivaAws.Mqtt.FailedSubscribe

/-!
# The packets of the four operations

Each of `MQTT_Connect`, `MQTT_Subscribe`, `MQTT_Unsubscribe` and `MQTT_Publish` writes the packet
that the standard gives its parameters, inside its buffer, as long as the lengths that it computes
are the true ones. The length of a string with its two bytes is kept in 16 bits and the length of a
publish in 32, so the lengths are wrong for a string of 65534 or 65535 bytes and for a publish of
2 ^ 32 bytes or more, and then a packet that is sent is not the one asked for
(`request_packets_iff`).
-/

namespace TivaAws.Mqtt

open Session ByteMemory

variable {W : Type} (user : MQTTInitParams W)

/-! ## What the operations send -/

/-- An operation that sends a packet with parameters. -/
inductive Submission where
  | connect (params : MQTTConnectParams)
  | subscribe (params : MQTTSubscribeParams)
  | unsubscribe (params : MQTTUnsubscribeParams)
  | publish (params : MQTTPublishParams)

/-- How a publish with the given QoS is delivered. -/
def MQTTPublishParams.delivery (params : MQTTPublishParams) : Delivery :=
  match params.qos with
  | .qos0 => .atMostOnce
  | .qos1 => .atLeastOnce false params.packetIdentifier
  | .qos2 => .exactlyOnce false params.packetIdentifier

namespace Submission

/-- The call of the operation. -/
def call (s : Session W) : Submission → MQTTReturnCode × Session W
  | connect params => mqttConnect user params s
  | subscribe params => mqttSubscribe user params s
  | unsubscribe params => mqttUnsubscribe user params s
  | publish params => mqttPublish user params s

/-- The packet that the parameters ask for. -/
def packet : Submission → ControlPacket
  | connect params => .connect true params.keepAliveIntervalSeconds params.clientId none
      (if params.userName.bytes.length > 0 then some (params.userName, none) else none)
  | subscribe params => .subscribe params.packetIdentifier [(params.topic, params.qos)] (by simp)
  | unsubscribe params => .unsubscribe params.packetIdentifier [params.topic] (by simp)
  | publish params => .publish params.delivery false params.topic params.data

/-- The "Remaining Length" that the operation computes. -/
def remainingLength : Submission → Nat
  | connect params => params.remainingLength
  | subscribe params => params.remainingLength
  | unsubscribe params => params.remainingLength
  | publish params => params.remainingLength

/-- The writer of the operation. -/
def write : Submission → MQTTBuffer → ByteMemory
  | connect params => params.write
  | subscribe params => params.write
  | unsubscribe params => params.write
  | publish params => params.write

/-- The connection is in the state in which the operation goes on. -/
def Starts (state : MQTTConnectionState) : Submission → Prop
  | connect _ => state = .notConnected
  | subscribe _ => state = .connected
  | unsubscribe _ => state = .connected
  | publish _ => state = .connected

/-- The subscription of `MQTT_Subscribe` is stored. -/
def Stored (manager : MQTTSubscriptionManager) : Submission → Prop
  | subscribe params => (prvStoreSubscription params.topic.bytes params.publishCallbackContext
      params.publishCallback manager).1 = true
  | _ => True

/-- Every string with the two bytes of its length has a 16-bit length, and a publish has a 32-bit
length. No filter that `MQTT_Subscribe` has stored is too long. -/
def LengthsFit : Submission → Prop
  | connect params => params.clientId.bytes.length ≤ 65533 ∧ params.userName.bytes.length ≤ 65533
  | subscribe _ => True
  | unsubscribe params => params.topic.bytes.length ≤ 65533
  | publish params => params.topic.bytes.length ≤ 65533 ∧
      2 + params.topic.bytes.length + (if params.qos = .qos0 then 0 else 2) + params.data.length <
        2 ^ 32

end Submission

/-- What the pool answers when it is asked for a buffer for a packet. -/
def packetBuffer (remainingLength : Nat) (w : W) : Option MQTTBuffer :=
  let requested := (totalMessageLength (prvSizeOfRemainingLength remainingLength) remainingLength +
    sizeofMQTTBufferMetadata) % 2 ^ 32
  (user.getBuffer requested w).1.map PoolBuffer.init

/-- The operation goes on, and gets a buffer for a packet of a permitted length. -/
structure Submission.Creates (submission : Submission) (c : MQTTContext) (w : W)
    (fresh : MQTTBuffer) : Prop where
  starts : submission.Starts c.connectionState
  stored : submission.Stored c.subscriptionManager
  permitted : submission.remainingLength ≤ maxRemainingLength
  granted : packetBuffer user submission.remainingLength w = some fresh

/-- The packet that the writer of the operation leaves in its buffer. -/
def Submission.written (submission : Submission) (fresh : MQTTBuffer) : List UInt8 :=
  (submission.write fresh).readBytes 0
    (totalMessageLength (prvSizeOfRemainingLength submission.remainingLength)
      submission.remainingLength)

/-- Whatever the buffer holds, no byte after its end is written. -/
def Submission.WritesInside (submission : Submission) (fresh : MQTTBuffer) : Prop :=
  ∀ data i, fresh.effectiveLength ≤ i → submission.write { fresh with data } i = data i

/-- The call fails and sends nothing, or it has written inside its buffer and has sent the packet
that it was asked for. -/
def Submission.EncodedOrNotSent (submission : Submission) (c : MQTTContext) (w : W) : Prop :=
  let result := submission.call user ⟨c, w, []⟩
  (result.1 ≠ .success ∧ sends result.2.outputs = []) ∨
  ∃ fresh count, packetBuffer user submission.remainingLength w = some fresh ∧
    submission.WritesInside fresh ∧
    sends result.2.outputs = [(submission.written fresh, count)] ∧
    ControlPacket.Decodes (submission.written fresh) submission.packet

/-- The lengths that the call computes are the true ones: of what follows the fixed header, and of
the buffer that it asks for. -/
def Submission.NoWrap (submission : Submission) (c : MQTTContext) : Prop :=
  submission.Starts c.connectionState → submission.Stored c.subscriptionManager →
    submission.remainingLength = submission.packet.body.length ∧
      (submission.remainingLength ≤ maxRemainingLength →
        totalMessageLength (prvSizeOfRemainingLength submission.remainingLength)
          submission.remainingLength + sizeofMQTTBufferMetadata < 2 ^ 32)

/-! ## Writing one part after the other -/

section Parts

variable (memory : ByteMemory) {front : List UInt8}

/-- What is written where the bytes so far end comes after them. -/
theorem write_after {offset : Nat} (back : List UInt8) (hoffset : offset = front.length) :
    (memory.writeBytes 0 front).writeBytes offset back = memory.writeBytes 0 (front ++ back) := by
  rw [hoffset, ← writeBytes_append, Nat.zero_add]

theorem length_string_field (string : MQTTString) :
    (stringField.encode string).length = string.bytes.length + 2 := by
  rw [string_field_encode]
  simp

theorem write_string_after {destination lastByte : Nat} (string : MQTTString)
    (hdestination : destination = front.length)
    (hfits : front.length + (string.bytes.length + 2) ≤ lastByte + 1) :
    prvWriteString (memory.writeBytes 0 front) destination lastByte string =
      ((front ++ stringField.encode string).length,
        memory.writeBytes 0 (front ++ stringField.encode string)) := by
  rw [write_string_eq _ string (by omega), write_after memory _ hdestination,
    List.length_append, length_string_field, hdestination, string_field_encode]
  exact Prod.ext (by simp only; omega) rfl

/-- The variable header of CONNECT after the changes to its flags and its keep-alive time. -/
theorem connect_header_eq (front : List UInt8) {size : Nat} (hsize : front.length = 1 + size)
    (named : Prop) [Decidable named] (keepAlive : UInt16) :
    let copied := (memory.writeBytes 0 front).writeBytes (adjustOffset 2 size)
      defaultConnectVariableHeader
    let flagged := if named then copied.writeBytes (adjustOffset 9 size)
        [copied (adjustOffset 9 size) ||| connectUserNameFlag]
      else copied
    (flagged.writeBytes (adjustOffset 10 size) [(keepAlive >>> 8).toUInt8]).writeBytes
        (adjustOffset 11 size) [keepAlive.toUInt8] =
      memory.writeBytes 0 (front ++ ([0, 4, 'M'.toUInt8, 'Q'.toUInt8, 'T'.toUInt8, 'T'.toUInt8,
        protocolLevel, if named then connectCleanSessionFlag ||| connectUserNameFlag
          else connectCleanSessionFlag] ++ Field.word.encode keepAlive)) := by
  intro copied flagged
  have hoffset : ∀ x, adjustOffset (2 + x) size = 0 + (front.length + x) := by
    intro x
    rw [adjustOffset]
    omega
  have hcopied : copied = memory.writeBytes 0 (front ++ defaultConnectVariableHeader) :=
    write_after memory _ (by rw [adjustOffset]; omega)
  have hset : ∀ (header : List UInt8) (x : Nat) (b : UInt8), x < header.length →
      (memory.writeBytes 0 (front ++ header)).writeBytes (adjustOffset (2 + x) size) [b] =
        memory.writeBytes 0 (front ++ header.set x b) := by
    intro header x b hx
    have hin : front.length + x < (front ++ header).length := by
      rw [List.length_append]
      omega
    rw [hoffset, writeBytes_set memory 0 b hin, List.set_append_right _ _ (by omega),
      Nat.add_sub_cancel_left]
  have hflags : copied (adjustOffset 9 size) = connectCleanSessionFlag := by
    have hin : front.length + 7 < (front ++ defaultConnectVariableHeader).length := by
      rw [List.length_append]
      exact Nat.add_lt_add_left (by decide) _
    have hread := @writeBytes_inside memory 0 _ _ hin
    rw [hcopied, show adjustOffset 9 size = _ from hoffset 7, hread]
    simp [List.getElem_append_right, defaultConnectVariableHeader]
  -- The header so far has ten bytes whether there is a user name or not.
  obtain ⟨header, hheader, hlength, hflagged⟩ : ∃ header : List UInt8,
      header = (if named then
        defaultConnectVariableHeader.set 7 (connectCleanSessionFlag ||| connectUserNameFlag)
        else defaultConnectVariableHeader) ∧ header.length = 10 ∧
      flagged = memory.writeBytes 0 (front ++ header) := by
    refine ⟨_, rfl, ?_, ?_⟩
    · split_ifs <;> rfl
    · simp only [flagged]
      split_ifs
      · rw [hflags, hcopied]
        exact hset _ 7 _ (by decide)
      · exact hcopied
  rw [hflagged, show (10 : Nat) = 2 + 8 from rfl, hset _ 8 _ (by omega),
    show (11 : Nat) = 2 + 9 from rfl, hset _ 9 _ (by rw [List.length_set]; omega),
    Field.word_encode, hheader]
  split_ifs <;> rfl

end Parts

/-! ## True lengths -/

theorem connect_body (params : MQTTConnectParams) :
    (Submission.connect params).packet.body =
      ([0, 4, 'M'.toUInt8, 'Q'.toUInt8, 'T'.toUInt8, 'T'.toUInt8, protocolLevel,
        if params.userName.bytes.length > 0 then connectCleanSessionFlag ||| connectUserNameFlag
          else connectCleanSessionFlag] ++ Field.word.encode params.keepAliveIntervalSeconds) ++
      (stringField.encode params.clientId ++
        if params.userName.bytes.length > 0 then stringField.encode params.userName else []) := by
  unfold Submission.packet ControlPacket.body
  by_cases hnamed : params.userName.bytes.length > 0
  · simp only [if_pos hnamed, Option.map_none, Option.map_some, Option.bind_some, Field.optional,
      Option.elim_none, Option.elim_some, List.nil_append, List.append_nil, List.append_assoc]
    rw [show connectFlags true none (some (params.userName, none)) =
      connectCleanSessionFlag ||| connectUserNameFlag from
        show UInt8.ofNat 130 = _ by decide]
    rfl
  · simp only [if_neg hnamed, Option.map_none, Option.bind_none, Field.optional, Option.elim_none,
      List.append_nil, List.append_assoc]
    rfl

theorem subscribe_body (params : MQTTSubscribeParams) :
    (Submission.subscribe params).packet.body =
      (Field.word.encode params.packetIdentifier ++ stringField.encode params.topic) ++
        [params.qos.toUInt8] := by
  show Field.word.encode _ ++ List.flatMap (stringField.pair qosField).encode [_] = _
  rw [List.flatMap_singleton, List.append_assoc]
  rfl

theorem unsubscribe_body (params : MQTTUnsubscribeParams) :
    (Submission.unsubscribe params).packet.body =
      Field.word.encode params.packetIdentifier ++ stringField.encode params.topic := by
  show Field.word.encode _ ++ List.flatMap stringField.encode [_] = _
  rw [List.flatMap_singleton]

theorem publish_body (params : MQTTPublishParams) :
    (Submission.publish params).packet.body = params.body := by
  have hidentifier : Field.word.optional params.delivery.identifier = if params.qos = .qos0 then []
      else [(params.packetIdentifier >>> 8).toUInt8, params.packetIdentifier.toUInt8] := by
    unfold MQTTPublishParams.delivery
    cases params.qos with
    | qos0 => rfl
    | qos1 => exact Field.word_encode _
    | qos2 => exact Field.word_encode _
  show stringField.encode params.topic ++ (Field.word.optional params.delivery.identifier ++ _) = _
  rw [hidentifier, string_field_encode, List.append_assoc]
  rfl

theorem encoded_length_eq (string : MQTTString) :
    string.encodedLength = string.bytes.length + 2 ∧ string.bytes.length ≤ 65533 ∨
      string.encodedLength + 65536 = string.bytes.length + 2 ∧ 65533 < string.bytes.length := by
  have hlt := string.length_lt
  rw [MQTTString.encodedLength]
  omega

theorem stored_topic_length {topic : List UInt8} {context : CallbackContext}
    {callback : Option FunctionPointer} {manager : MQTTSubscriptionManager}
    (h : (prvStoreSubscription topic context callback manager).1 = true) :
    topic.length ≤ subscriptionManagerMaxTopicLength := by
  rcases store_outcome topic context callback manager with ⟨hrefused, -⟩ | ⟨hadmits, -⟩
  · rw [hrefused] at h
    exact absurd h Bool.false_ne_true
  · exact hadmits.2.1

/-- The computed length is the true one exactly if no length has wrapped. -/
theorem remaining_length_iff {submission : Submission} {manager : MQTTSubscriptionManager}
    (hstored : submission.Stored manager) :
    submission.remainingLength = submission.packet.body.length ↔ submission.LengthsFit := by
  cases submission with
  | connect params =>
      have hlength := congrArg List.length (connect_body params)
      rw [List.length_append, List.length_append, List.length_append,
        length_string_field] at hlength
      rw [hlength]
      show 10 + _ + _ = 8 + 2 + _ ↔ _ ∧ _
      have hclient := encoded_length_eq params.clientId
      have huser := encoded_length_eq params.userName
      by_cases hnamed : params.userName.bytes.length > 0
      · rw [if_pos hnamed, if_pos hnamed, length_string_field]
        omega
      · rw [if_neg hnamed, if_neg hnamed]
        simp only [List.length_nil]
        omega
  | subscribe params =>
      have hlength := congrArg List.length (subscribe_body params)
      rw [List.length_append, List.length_append, length_string_field, Field.length_word_encode,
        List.length_singleton] at hlength
      rw [hlength]
      show 2 + _ + 1 = 2 + _ + 1 ↔ True
      have hshort := stored_topic_length hstored
      have hmax : subscriptionManagerMaxTopicLength = 128 := rfl
      have htopic := encoded_length_eq params.topic
      rw [iff_true]
      omega
  | unsubscribe params =>
      have hlength := congrArg List.length (unsubscribe_body params)
      rw [List.length_append, length_string_field, Field.length_word_encode] at hlength
      rw [hlength]
      show 2 + _ = 2 + _ ↔ _ ≤ _
      have htopic := encoded_length_eq params.topic
      omega
  | publish params =>
      have hbody := publish_body params
      rw [hbody, params.length_body]
      show params.remainingLength = _ ↔ _ ∧ _
      have htopic := encoded_length_eq params.topic
      have hdata := params.length_lt
      rw [MQTTPublishParams.remainingLength, packetIdentifierLength]
      split_ifs <;> omega

/-! ## The writers -/

/-- The bytes of a packet with the shortest "Remaining Length". -/
def ControlPacket.bytes (packet : ControlPacket) : List UInt8 :=
  packet.controlByte :: (Varint.encode packet.body.length ++ packet.body)

theorem ControlPacket.is_packet_bytes {packet : ControlPacket}
    (hmax : packet.body.length ≤ maxRemainingLength) : packet.IsPacket packet.bytes := by
  refine ⟨_, rfl, Varint.encode_complete _, ?_, Varint.value_encode _⟩
  rw [length_encode_eq_size hmax]
  exact size_le_four _

section Writers

variable {fresh : MQTTBuffer}

/-- CONNECT with true lengths is the packet. -/
theorem connect_write_eq {params : MQTTConnectParams}
    (htrue : params.remainingLength = (Submission.connect params).packet.body.length)
    (hmax : params.remainingLength ≤ maxRemainingLength)
    (hroom : totalMessageLength (prvSizeOfRemainingLength params.remainingLength)
      params.remainingLength ≤ fresh.effectiveLength) :
    params.write fresh = fresh.cleared.writeBytes 0 (Submission.connect params).packet.bytes := by
  have hsize := length_encode_eq_size hmax
  have hbytes : (Submission.connect params).packet.bytes =
      ((controlCONNECT ||| flagsCONNECT) :: Varint.encode params.remainingLength) ++
        (Submission.connect params).packet.body := by
    rw [htrue]
    rfl
  have hlength := congrArg List.length (connect_body params)
  unfold MQTTConnectParams.write
  simp only
  rw [write_fixed_header_eq _ hmax hroom, hbytes, connect_body]
  simp only
  rw [totalMessageLength] at hroom
  have hfront : ((controlCONNECT ||| flagsCONNECT) ::
      Varint.encode params.remainingLength).length =
        1 + prvSizeOfRemainingLength params.remainingLength := by
    rw [List.length_cons, hsize, Nat.add_comm]
  generalize (controlCONNECT ||| flagsCONNECT) :: Varint.encode params.remainingLength = front
    at hfront ⊢
  have hheader := connect_header_eq fresh.cleared front hfront (params.userName.bytes.length > 0)
    params.keepAliveIntervalSeconds
  simp only at hheader
  rw [hheader]
  generalize hdef : [0, 4, 'M'.toUInt8, 'Q'.toUInt8, 'T'.toUInt8, 'T'.toUInt8, protocolLevel, _] ++
    _ = header at hlength ⊢
  have hten : header.length = 10 := by
    rw [← hdef]
    rfl
  rw [← htrue, List.length_append, List.length_append, length_string_field, hten] at hlength
  have hend : (front ++ header).length = 11 + prvSizeOfRemainingLength params.remainingLength := by
    rw [List.length_append, hfront, hten]
    omega
  have hlast : fresh.lastByte = fresh.effectiveLength - 1 := rfl
  rw [← List.append_assoc, write_string_after fresh.cleared params.clientId
    (by rw [adjustOffset]; omega) (by omega)]
  by_cases hnamed : params.userName.bytes.length > 0
  · rw [if_pos hnamed, length_string_field] at hlength
    rw [if_pos hnamed, if_pos hnamed, ← List.append_assoc,
      write_string_after fresh.cleared params.userName rfl
        (by rw [List.length_append, length_string_field]; omega)]
  · rw [if_neg hnamed, if_neg hnamed, List.append_nil]

/-- The two requests with an identifier and a filter start in the same way. -/
theorem request_header_eq {controlByte : UInt8} {remainingLength : Nat} {topic : MQTTString}
    (packetIdentifier : UInt16) (hmax : remainingLength ≤ maxRemainingLength)
    (hroom : totalMessageLength (prvSizeOfRemainingLength remainingLength) remainingLength ≤
      fresh.effectiveLength)
    (hcounted : 4 + topic.bytes.length ≤ remainingLength) :
    let header := writeFixedHeader controlByte remainingLength fresh
    let front := (controlByte :: Varint.encode remainingLength) ++
      (Field.word.encode packetIdentifier ++ stringField.encode topic)
    prvWriteString (writePacketIdentifier header.2 (adjustOffset 2 header.1) packetIdentifier)
        (adjustOffset 4 header.1) fresh.lastByte topic =
      (front.length, fresh.cleared.writeBytes 0 front) := by
  intro header front
  have hsize := length_encode_eq_size hmax
  have hroom' := hroom
  rw [totalMessageLength] at hroom'
  simp only [header, front]
  rw [write_fixed_header_eq _ hmax hroom]
  simp only
  have hfront : (controlByte :: Varint.encode remainingLength).length =
      1 + prvSizeOfRemainingLength remainingLength := by
    rw [List.length_cons, hsize, Nat.add_comm]
  generalize controlByte :: Varint.encode remainingLength = fixed at hfront ⊢
  have htwo : (Field.word.encode packetIdentifier).length = 2 := rfl
  have hlast : fresh.lastByte = fresh.effectiveLength - 1 := rfl
  rw [write_identifier_eq, ← Field.word_encode,
    write_after fresh.cleared _ (by rw [adjustOffset]; omega),
    write_string_after fresh.cleared topic
      (by rw [List.length_append, adjustOffset]; omega)
      (by rw [List.length_append]; omega),
    List.append_assoc]

theorem publish_control_byte_eq (params : MQTTPublishParams) :
    (Submission.publish params).packet.controlByte =
      controlPUBLISH ||| (params.qos.toUInt8 <<< 1) := by
  show UInt8.ofNat (0x30 + params.delivery.flags + 0) = _
  unfold MQTTPublishParams.delivery
  cases params.qos with
  | qos0 => exact show UInt8.ofNat (0x30 + 0 + 0) = _ by decide
  | qos1 => exact show UInt8.ofNat (0x30 + (8 * 0 + 2) + 0) = _ by decide
  | qos2 => exact show UInt8.ofNat (0x30 + (8 * 0 + 4) + 0) = _ by decide

theorem subscribe_write_eq {params : MQTTSubscribeParams}
    (htrue : params.remainingLength = (Submission.subscribe params).packet.body.length)
    (hmax : params.remainingLength ≤ maxRemainingLength)
    (hroom : totalMessageLength (prvSizeOfRemainingLength params.remainingLength)
      params.remainingLength ≤ fresh.effectiveLength) :
    params.write fresh = fresh.cleared.writeBytes 0 (Submission.subscribe params).packet.bytes := by
  have hbody := subscribe_body params
  have hlength := congrArg List.length hbody
  rw [← htrue, List.length_append, List.length_append, length_string_field,
    Field.length_word_encode, List.length_singleton] at hlength
  unfold MQTTSubscribeParams.write
  simp only
  rw [request_header_eq params.packetIdentifier hmax hroom (by omega)]
  simp only
  rw [write_after fresh.cleared _ rfl, List.append_assoc, ← hbody, htrue]
  rfl

theorem unsubscribe_write_eq {params : MQTTUnsubscribeParams}
    (htrue : params.remainingLength = (Submission.unsubscribe params).packet.body.length)
    (hmax : params.remainingLength ≤ maxRemainingLength)
    (hroom : totalMessageLength (prvSizeOfRemainingLength params.remainingLength)
      params.remainingLength ≤ fresh.effectiveLength) :
    params.write fresh =
      fresh.cleared.writeBytes 0 (Submission.unsubscribe params).packet.bytes := by
  have hbody := unsubscribe_body params
  have hlength := congrArg List.length hbody
  rw [← htrue, List.length_append, length_string_field, Field.length_word_encode] at hlength
  unfold MQTTUnsubscribeParams.write
  simp only
  rw [request_header_eq params.packetIdentifier hmax hroom (by omega)]
  simp only
  rw [← hbody, htrue]
  rfl

/-- With true lengths and room for it, every operation writes the packet it is asked for. -/
theorem submission_write_eq {submission : Submission}
    (htrue : submission.remainingLength = submission.packet.body.length)
    (hmax : submission.remainingLength ≤ maxRemainingLength)
    (hroom : totalMessageLength (prvSizeOfRemainingLength submission.remainingLength)
      submission.remainingLength ≤ fresh.effectiveLength) :
    submission.write fresh = fresh.cleared.writeBytes 0 submission.packet.bytes := by
  cases submission with
  | connect params => exact connect_write_eq htrue hmax hroom
  | subscribe params => exact subscribe_write_eq htrue hmax hroom
  | unsubscribe params => exact unsubscribe_write_eq htrue hmax hroom
  | publish params =>
      have hbody := publish_body params
      have hlength : params.remainingLength = params.body.length := by
        rw [← hbody]
        exact htrue
      have hfit := (@remaining_length_iff (.publish params) blankContext.subscriptionManager
        trivial).mp htrue
      have hfits : params.Fits := ⟨hfit.1, hlength ▸ hmax⟩
      show params.write fresh = _
      rw [publish_write_eq hfits hroom]
      show writeBytes _ 0 (_ :: (_ ++ _)) = writeBytes _ 0 (_ :: (_ ++ _))
      rw [publish_control_byte_eq, hbody]
      rfl

end Writers

/-! ## The calls -/

section Calls

variable {user} {s : Session W} {remainingLength : Nat} {timeoutTicks : UInt32}
  {packetIdentifier : UInt16} {write : MQTTBuffer → ByteMemory}

theorem sends_return_buffer (handle : Option MQTTBufferHandle) (s : Session W) :
    sends (prvReturnBuffer user handle s).outputs = sends s.outputs := by
  cases handle with
  | none => rfl
  | some handle =>
      have houtputs : (prvReturnBuffer user (some handle) s).outputs =
          s.outputs ++ [.returned handle] := rfl
      rw [houtputs, sends_append]
      exact List.append_nil _

/-- A packet that is created is handed over as it was written. -/
theorem submit_sends {fresh : MQTTBuffer} (hmax : remainingLength ≤ maxRemainingLength)
    (hgranted : packetBuffer user remainingLength s.world = some fresh) (acknowledged : Bool) :
    ∃ count, sends (submitPacket user remainingLength timeoutTicks packetIdentifier write
        acknowledged s).2.outputs =
      sends s.outputs ++ [((write fresh).readBytes 0
        (totalMessageLength (prvSizeOfRemainingLength remainingLength) remainingLength),
          count)] := by
  obtain ⟨buffer, s', hcreated, hpacket, hsends⟩ : ∃ buffer s',
      createPacket user remainingLength timeoutTicks packetIdentifier write s =
        (.success, some buffer, s') ∧
      buffer.packet = (write fresh).readBytes 0
        (totalMessageLength (prvSizeOfRemainingLength remainingLength) remainingLength) ∧
      sends s'.outputs = sends s.outputs := by
    unfold packetBuffer at hgranted
    simp only at hgranted
    obtain ⟨granted, hanswer, hinit⟩ := Option.map_eq_some_iff.mp hgranted
    obtain ⟨hnow, -⟩ := get_current_tick_count_spec user
      (Session.emit (.obtained granted.handle)
        { s with world := (user.getBuffer _ s.world).2 })
    unfold createPacket prvGetFreeBuffer
    simp only [(size_pos_iff remainingLength).mpr hmax, if_true, hanswer]
    refine ⟨_, _, rfl, ?_, ?_⟩
    · rw [hinit]
      rfl
    · show sends (prvGetCurrentTickCount user _).2.outputs = _
      rw [hnow.outputs, sends_append, sends_clock, List.append_nil]
      show sends (s.outputs ++ [_]) = _
      rw [sends_append]
      exact List.append_nil _
  obtain ⟨count, t, hsend, -, -⟩ := send_data_spec user buffer.packet s'
  refine ⟨count, ?_⟩
  have hsent : sends (prvSendData user buffer.packet s').2.outputs =
      sends s.outputs ++ [(buffer.packet, count)] := by
    rw [hsend.outputs, sends_append, sends_transmitted, hsends]
  unfold submitPacket
  simp only [hcreated]
  split_ifs
  · rw [sends_return_buffer, ← hpacket]
    exact hsent
  · rw [← hpacket]
    exact hsent

/-- Without a permitted length or a buffer nothing is handed over. -/
theorem submit_refused (hrefused : remainingLength ≤ maxRemainingLength →
      packetBuffer user remainingLength s.world = none) (acknowledged : Bool) :
    let sent := submitPacket user remainingLength timeoutTicks packetIdentifier write acknowledged s
    sent.1 ≠ .success ∧ sends sent.2.outputs = sends s.outputs := by
  intro sent
  obtain ⟨code, s', hcreated, hcode, hsends⟩ : ∃ code s',
      createPacket user remainingLength timeoutTicks packetIdentifier write s = (code, none, s') ∧
      code ≠ .success ∧ sends s'.outputs = sends s.outputs := by
    unfold createPacket
    by_cases hmax : remainingLength ≤ maxRemainingLength
    · have hnone := Option.map_eq_none_iff.mp (hrefused hmax)
      unfold prvGetFreeBuffer
      simp only [(size_pos_iff remainingLength).mpr hmax, if_true, hnone]
      refine ⟨_, _, rfl, by decide, ?_⟩
      show sends (s.outputs ++ [_]) = _
      rw [sends_append]
      exact List.append_nil _
    · have hsize : ¬ prvSizeOfRemainingLength remainingLength > 0 :=
        fun h => hmax ((size_pos_iff remainingLength).mp h)
      simp only [hsize, if_false]
      exact ⟨_, _, rfl, by decide, rfl⟩
  have hsent : sent = (code, s') := by
    simp only [sent, submitPacket, hcreated]
    have htransmit : transmitPacket user (code, none, s') = (code, s') := by
      cases code <;> rfl
    rw [htransmit, if_pos (Or.inl hcode)]
    rfl
  rw [hsent]
  exact ⟨hcode, hsends⟩

variable {submission : Submission} {c : MQTTContext} {w : W}

/-- A call of `MQTT_Connect` submits its packet, unless the context is in use. -/
theorem mqtt_connect_submits (params : MQTTConnectParams)
    (hstate : s.context.connectionState = .notConnected) :
    let sent := submitPacket user params.remainingLength params.timeoutTicks
      params.packetIdentifier params.write true (s.update fun context => { context with
        keepAliveActualIntervalTicks := params.keepAliveActualIntervalTicks
        pingRequestTimeoutTicks := params.pingRequestTimeoutTicks })
    (mqttConnect user params s).1 = sent.1 ∧
      (mqttConnect user params s).2.outputs = sent.2.outputs := by
  unfold mqttConnect
  simp only [hstate]
  generalize submitPacket user params.remainingLength params.timeoutTicks
    params.packetIdentifier params.write true _ = sent
  split_ifs
  · exact ⟨rfl, rfl⟩
  · exact ⟨rfl, rfl⟩

theorem mqtt_connect_refused (params : MQTTConnectParams)
    (hstate : s.context.connectionState ≠ .notConnected) :
    (mqttConnect user params s).1 ≠ .success ∧ (mqttConnect user params s).2 = s := by
  unfold mqttConnect
  cases hc : s.context.connectionState with
  | notConnected => exact absurd hc hstate
  | connectionInProgress => exact ⟨MQTTReturnCode.noConfusion, rfl⟩
  | connected => exact ⟨MQTTReturnCode.noConfusion, rfl⟩

/-- A call of `MQTT_Subscribe` submits its packet after it has stored the subscription. -/
theorem mqtt_subscribe_submits (params : MQTTSubscribeParams)
    (hstate : s.context.connectionState = .connected)
    (hstored : (prvStoreSubscription params.topic.bytes params.publishCallbackContext
      params.publishCallback s.context.subscriptionManager).1 = true) :
    let sent := submitPacket user params.remainingLength params.timeoutTicks
      params.packetIdentifier params.write true (s.update fun context => { context with
        subscriptionManager := (prvStoreSubscription params.topic.bytes
          params.publishCallbackContext params.publishCallback
          s.context.subscriptionManager).2 })
    (mqttSubscribe user params s).1 = sent.1 ∧
      (mqttSubscribe user params s).2.outputs = sent.2.outputs := by
  unfold mqttSubscribe
  simp only [hstate, ne_eq, not_true_eq_false, if_false, hstored, if_true]
  generalize submitPacket user params.remainingLength params.timeoutTicks
    params.packetIdentifier params.write true _ = sent
  split_ifs
  · exact ⟨rfl, rfl⟩
  · exact ⟨rfl, rfl⟩

theorem mqtt_subscribe_refused (params : MQTTSubscribeParams)
    (hrefused : s.context.connectionState = .connected →
      ¬ (prvStoreSubscription params.topic.bytes params.publishCallbackContext
        params.publishCallback s.context.subscriptionManager).1 = true) :
    (mqttSubscribe user params s).1 ≠ .success ∧
      (mqttSubscribe user params s).2.outputs = s.outputs := by
  unfold mqttSubscribe
  by_cases hstate : s.context.connectionState = .connected
  · simp only [hstate, ne_eq, not_true_eq_false, if_false, hrefused hstate, Bool.false_eq_true]
    exact ⟨MQTTReturnCode.noConfusion, rfl⟩
  · simp only [hstate, ne_eq, not_false_eq_true, if_true]
    exact ⟨MQTTReturnCode.noConfusion, rfl⟩

variable {submission : Submission} {c : MQTTContext} {w : W}

/-- A call that is not refused at once comes to submitting its packet. -/
theorem call_submits (hstarts : submission.Starts c.connectionState)
    (hstored : submission.Stored c.subscriptionManager) :
    ∃ configured timeoutTicks packetIdentifier acknowledged,
      let sent := submitPacket user submission.remainingLength timeoutTicks packetIdentifier
        submission.write acknowledged ⟨configured, w, []⟩
      (submission.call user ⟨c, w, []⟩).1 = sent.1 ∧
        (submission.call user ⟨c, w, []⟩).2.outputs = sent.2.outputs := by
  cases submission with
  | connect params =>
      obtain ⟨hcode, houtputs⟩ := @mqtt_connect_submits _ user ⟨c, w, []⟩ params hstarts
      exact ⟨_, params.timeoutTicks, params.packetIdentifier, true, hcode, houtputs⟩
  | subscribe params =>
      obtain ⟨hcode, houtputs⟩ := @mqtt_subscribe_submits _ user ⟨c, w, []⟩ params hstarts hstored
      exact ⟨_, params.timeoutTicks, params.packetIdentifier, true, hcode, houtputs⟩
  | unsubscribe params =>
      have hcall : mqttUnsubscribe user params ⟨c, w, []⟩ = submitPacket user
          params.remainingLength params.timeoutTicks params.packetIdentifier params.write true
          ⟨c, w, []⟩ := if_neg (not_not_intro hstarts)
      exact ⟨c, params.timeoutTicks, params.packetIdentifier, true, congrArg Prod.fst hcall,
        congrArg (fun r => r.2.outputs) hcall⟩
  | publish params =>
      have hcall : mqttPublish user params ⟨c, w, []⟩ = submitPacket user params.remainingLength
          params.timeoutTicks params.packetIdentifier params.write (params.qos ≠ .qos0)
          ⟨c, w, []⟩ := if_neg (not_not_intro hstarts)
      exact ⟨c, params.timeoutTicks, params.packetIdentifier, params.qos ≠ .qos0,
        congrArg Prod.fst hcall, congrArg (fun r => r.2.outputs) hcall⟩

/-- A call that is refused at once sends nothing. -/
theorem call_refused (hrefused : submission.Starts c.connectionState →
      ¬ submission.Stored c.subscriptionManager) :
    (submission.call user ⟨c, w, []⟩).1 ≠ .success ∧
      (submission.call user ⟨c, w, []⟩).2.outputs = [] := by
  cases submission with
  | connect params =>
      obtain ⟨hcode, hsame⟩ := @mqtt_connect_refused _ user ⟨c, w, []⟩ params
        fun h => hrefused h trivial
      exact ⟨hcode, congrArg outputs hsame⟩
  | subscribe params => exact @mqtt_subscribe_refused _ user ⟨c, w, []⟩ params hrefused
  | unsubscribe params =>
      have hcall : mqttUnsubscribe user params ⟨c, w, []⟩ = (.clientNotConnected, ⟨c, w, []⟩) :=
        if_pos fun h => hrefused h trivial
      exact ⟨fun h => MQTTReturnCode.noConfusion ((congrArg Prod.fst hcall).symm.trans h),
        congrArg (fun r => r.2.outputs) hcall⟩
  | publish params =>
      have hcall : mqttPublish user params ⟨c, w, []⟩ = (.clientNotConnected, ⟨c, w, []⟩) :=
        if_pos fun h => hrefused h trivial
      exact ⟨fun h => MQTTReturnCode.noConfusion ((congrArg Prod.fst hcall).symm.trans h),
        congrArg (fun r => r.2.outputs) hcall⟩

/-- A call that creates a packet hands it over. -/
theorem Submission.Creates.sends {fresh : MQTTBuffer} (h : submission.Creates user c w fresh) :
    ∃ count, Mqtt.sends (submission.call user ⟨c, w, []⟩).2.outputs =
      [(submission.written fresh, count)] := by
  obtain ⟨configured, timeoutTicks, packetIdentifier, acknowledged, -, houtputs⟩ :=
    @call_submits _ user _ c w h.starts h.stored
  rw [houtputs]
  exact @submit_sends _ user ⟨configured, w, []⟩ _ _ _ _ _ h.permitted h.granted acknowledged

/-- A call that creates no packet fails and sends nothing. -/
theorem not_creates_sends (h : ∀ fresh, ¬ submission.Creates user c w fresh) :
    (submission.call user ⟨c, w, []⟩).1 ≠ .success ∧
      sends (submission.call user ⟨c, w, []⟩).2.outputs = [] := by
  by_cases hgoes : submission.Starts c.connectionState ∧ submission.Stored c.subscriptionManager
  · obtain ⟨configured, timeoutTicks, packetIdentifier, acknowledged, hcode, houtputs⟩ :=
      @call_submits _ user _ c w hgoes.1 hgoes.2
    rw [hcode, houtputs]
    refine @submit_refused _ user ⟨configured, w, []⟩ _ _ _ _ ?_ acknowledged
    intro hmax
    cases hgranted : packetBuffer user submission.remainingLength w with
    | none => rfl
    | some fresh => exact absurd ⟨hgoes.1, hgoes.2, hmax, hgranted⟩ (h fresh)
  · obtain ⟨hcode, houtputs⟩ := @call_refused _ user submission c w fun hstarts hstored =>
      hgoes ⟨hstarts, hstored⟩
    rw [houtputs]
    exact ⟨hcode, rfl⟩

theorem requested_lt (hmax : remainingLength ≤ maxRemainingLength) :
    totalMessageLength (prvSizeOfRemainingLength remainingLength) remainingLength +
      sizeofMQTTBufferMetadata < 2 ^ 32 := by
  have hfour := size_le_four remainingLength
  rw [maxRemainingLength] at hmax
  rw [totalMessageLength, sizeofMQTTBufferMetadata]
  omega

/-- The pool hands out a buffer with room for the packet. -/
theorem packet_buffer_room {fresh : MQTTBuffer} (hmax : remainingLength ≤ maxRemainingLength)
    (h : packetBuffer user remainingLength w = some fresh) :
    totalMessageLength (prvSizeOfRemainingLength remainingLength) remainingLength ≤
      fresh.effectiveLength := by
  unfold packetBuffer at h
  simp only at h
  obtain ⟨granted, -, rfl⟩ := Option.map_eq_some_iff.mp h
  have hle : (totalMessageLength (prvSizeOfRemainingLength remainingLength) remainingLength +
      sizeofMQTTBufferMetadata) % 2 ^ 32 ≤ granted.length := granted.requested_le
  have hsmall := requested_lt hmax
  show _ ≤ granted.length - sizeofMQTTBufferMetadata
  omega

end Calls

/-! ## The packets -/

section Packets

variable {user} {submission : Submission} {c : MQTTContext} {w : W} {fresh : MQTTBuffer}

theorem length_bytes {packet : ControlPacket} (hmax : packet.body.length ≤ maxRemainingLength) :
    packet.bytes.length =
      totalMessageLength (prvSizeOfRemainingLength packet.body.length) packet.body.length := by
  rw [ControlPacket.bytes, List.length_cons, List.length_append, length_encode_eq_size hmax,
    totalMessageLength]
  omega

/-- With true lengths no byte after the end of the buffer is written. -/
theorem writes_inside (htrue : submission.remainingLength = submission.packet.body.length)
    (hmax : submission.remainingLength ≤ maxRemainingLength)
    (hroom : totalMessageLength (prvSizeOfRemainingLength submission.remainingLength)
      submission.remainingLength ≤ fresh.effectiveLength) : submission.WritesInside fresh := by
  intro data i hi
  have hlength := length_bytes (htrue ▸ hmax)
  rw [← htrue] at hlength
  rw [@submission_write_eq { fresh with data } submission htrue hmax hroom,
    writeBytes_above _ (by omega), MQTTBuffer.cleared,
    writeBytes_above _ (by rw [List.length_replicate]; exact (Nat.zero_add _).trans_le hi)]

/-- With true lengths the packet is the one that was asked for. -/
theorem written_decodes (htrue : submission.remainingLength = submission.packet.body.length)
    (hmax : submission.remainingLength ≤ maxRemainingLength)
    (hroom : totalMessageLength (prvSizeOfRemainingLength submission.remainingLength)
      submission.remainingLength ≤ fresh.effectiveLength) :
    ControlPacket.Decodes (submission.written fresh) submission.packet := by
  have hwritten : submission.written fresh = submission.packet.bytes := by
    rw [Submission.written, submission_write_eq htrue hmax hroom, htrue,
      ← length_bytes (htrue ▸ hmax), readBytes_writeBytes]
  rw [hwritten]
  exact (ControlPacket.is_packet_bytes (htrue ▸ hmax)).decodes

/-- A packet that decodes to what was asked for has the length of it. -/
theorem true_length_of_decodes (hmax : submission.remainingLength ≤ maxRemainingLength)
    (hroom : totalMessageLength (prvSizeOfRemainingLength submission.remainingLength)
      submission.remainingLength ≤ fresh.effectiveLength)
    (h : ControlPacket.Decodes (submission.written fresh) submission.packet) :
    submission.remainingLength = submission.packet.body.length := by
  obtain ⟨field, heq, hfield, -, hvalue⟩ := h.is_packet
  obtain ⟨controlByte, hwrites⟩ : ∃ controlByte,
      WritesPacket controlByte submission.remainingLength submission.write := by
    cases submission with
    | connect params => exact ⟨_, connect_writes_packet params⟩
    | subscribe params => exact ⟨_, subscribe_writes_packet params⟩
    | unsubscribe params => exact ⟨_, unsubscribe_writes_packet params⟩
    | publish params => exact ⟨_, publish_writes_packet params⟩
  have hheader := hwrites.header hmax hroom
  -- Both length fields come after the first byte, so they are one.
  rw [Submission.written, totalMessageLength, readBytes_add, hheader, List.cons_append] at heq
  obtain ⟨-, htail⟩ := List.cons.inj heq
  obtain ⟨hsame, -⟩ := Varint.complete_prefix_code.eq_of_append_eq (Varint.encode_complete _)
    hfield htail
  rw [← hsame, Varint.value_encode] at hvalue
  exact hvalue

/-- A call without a wrapped length sends the packet that it is asked for, if any. -/
theorem encoded_of_fit (hfit : submission.LengthsFit) : submission.EncodedOrNotSent user c w := by
  by_cases hcreates : ∃ fresh, submission.Creates user c w fresh
  · obtain ⟨fresh, h⟩ := hcreates
    obtain ⟨count, hsends⟩ := h.sends
    have htrue := (remaining_length_iff h.stored).mpr hfit
    have hroom := packet_buffer_room h.permitted h.granted
    exact Or.inr ⟨fresh, count, h.granted, writes_inside htrue h.permitted hroom, hsends,
      written_decodes htrue h.permitted hroom⟩
  · exact Or.inl (not_creates_sends fun fresh h => hcreates ⟨fresh, h⟩)

/-- A packet with a wrapped length is not the one asked for. -/
theorem fit_of_encoded (h : submission.EncodedOrNotSent user c w)
    (hcreates : submission.Creates user c w fresh) : submission.LengthsFit := by
  obtain ⟨count, hsends⟩ := hcreates.sends
  rcases h with ⟨-, hnone⟩ | ⟨other, count', hgranted, -, -, hdecodes⟩
  · rw [hsends] at hnone
    exact absurd hnone (List.cons_ne_nil _ _)
  · have hroom := packet_buffer_room hcreates.permitted hgranted
    exact (remaining_length_iff hcreates.stored).mp
      (true_length_of_decodes hcreates.permitted hroom hdecodes)

/-- Only `MQTT_Subscribe` stores anything, and its lengths fit when it does. -/
theorem stored_or_fit (submission : Submission) (manager : MQTTSubscriptionManager) :
    submission.Stored manager ∨ submission.LengthsFit := by
  cases submission with
  | connect => exact Or.inl trivial
  | subscribe => exact Or.inr trivial
  | unsubscribe => exact Or.inl trivial
  | publish => exact Or.inl trivial

end Packets

/-- Every packet sent is the one asked for, and no length wraps, exactly if the call is refused for
the state of the connection or all lengths fit. A packet with a length that does not fit is never
the one asked for. -/
theorem request_packets_iff (submission : Submission) (c : MQTTContext) (w : W) :
    (submission.EncodedOrNotSent user c w ∧ submission.NoWrap c ↔
      submission.LengthsFit ∨ ¬ submission.Starts c.connectionState) ∧
    (submission.EncodedOrNotSent user c w ↔
      submission.LengthsFit ∨ ∀ fresh, ¬ submission.Creates user c w fresh) := by
  refine ⟨⟨?_, ?_⟩, ⟨?_, ?_⟩⟩
  · rintro ⟨-, hwrap⟩
    by_cases hstarts : submission.Starts c.connectionState
    · left
      rcases stored_or_fit submission c.subscriptionManager with hstored | hfit
      · exact (remaining_length_iff hstored).mp (hwrap hstarts hstored).1
      · exact hfit
    · exact Or.inr hstarts
  · rintro (hfit | hstarts)
    · exact ⟨encoded_of_fit hfit, fun _ hstored =>
        ⟨(remaining_length_iff hstored).mpr hfit, requested_lt⟩⟩
    · refine ⟨Or.inl (not_creates_sends fun fresh h => hstarts h.starts), ?_⟩
      exact fun h => absurd h hstarts
  · intro hencoded
    by_cases hcreates : ∃ fresh, submission.Creates user c w fresh
    · obtain ⟨fresh, h⟩ := hcreates
      exact Or.inl (fit_of_encoded hencoded h)
    · exact Or.inr fun fresh h => hcreates ⟨fresh, h⟩
  · rintro (hfit | hnone)
    · exact encoded_of_fit hfit
    · exact Or.inl (not_creates_sends hnone)

/-- CONNECT with a client identifier of 65534 bytes. -/
def longConnect : MQTTConnectParams :=
  { benchConnect with
    clientId := ⟨List.replicate 65534 0x61, by rw [List.length_replicate]; omega⟩ }

/-- The client identifier is left out of the packet: the 16-bit length of it is zero. -/
theorem long_client_id_not_encoded :
    ¬ ((Submission.connect longConnect).EncodedOrNotSent benchUser blankContext
        ⟨1, 10, 65536, false⟩ ∧
      (Submission.connect longConnect).NoWrap blankContext) := by
  rintro ⟨hencoded, -⟩
  have hlong : longConnect.clientId.bytes.length = 65534 := List.length_replicate
  have hpermitted : longConnect.remainingLength ≤ maxRemainingLength := by
    rw [MQTTConnectParams.remainingLength, MQTTString.encodedLength, hlong]
    decide
  have hpool : ∀ remainingLength w, ∃ fresh,
      packetBuffer benchUser remainingLength w = some fresh := fun _ _ => ⟨_, rfl⟩
  obtain ⟨fresh, hgranted⟩ := hpool (Submission.connect longConnect).remainingLength
    ⟨1, 10, 65536, false⟩
  have hfit := (fit_of_encoded hencoded ⟨rfl, trivial, hpermitted, hgranted⟩).1
  omega

end TivaAws.Mqtt
