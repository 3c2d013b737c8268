import TivaAws.Mqtt.Acknowledgment
import TivaAws.Mqtt.SendStream

/-!
# What a publish carries to another client

The bytes that `MQTT_Publish` hands to the send function, fed in any pieces to the parser of a
connected client with a buffer for them, raise one publish event with the topic, the message and the
QoS of the publish. A QoS 1 publish is answered by one PUBACK with its identifier, a QoS 0 publish
by nothing. Both halves meet at `publishPacket`: it is what the writer writes and what the handler
reads.
-/

namespace TivaAws.Mqtt

open Session Labelled ByteMemory

variable {W : Type} {user : MQTTInitParams W} {params : MQTTPublishParams}

/-! ## The packet -/

/-- The variable header and the payload of a publish. -/
def MQTTPublishParams.body (params : MQTTPublishParams) : List UInt8 :=
  [UInt8.ofNat (params.topic.bytes.length >>> 8), UInt8.ofNat params.topic.bytes.length] ++
    (params.topic.bytes ++
      ((if params.qos = .qos0 then []
        else [(params.packetIdentifier >>> 8).toUInt8, params.packetIdentifier.toUInt8]) ++
      params.data))

/-- The 16-bit length of the topic with its two bytes does not overflow, and the length of the
packet fits in the "Remaining Length". -/
structure MQTTPublishParams.Fits (params : MQTTPublishParams) : Prop where
  topic : params.topic.bytes.length ≤ 65533
  total : params.body.length ≤ maxRemainingLength

theorem MQTTPublishParams.length_body (params : MQTTPublishParams) :
    params.body.length =
      2 + (params.topic.bytes.length +
        (packetIdentifierLength params.qos + params.data.length)) := by
  unfold body packetIdentifierLength
  cases params.qos <;> simp <;> omega

/-- The computed length is the true one. -/
theorem MQTTPublishParams.Fits.remaining_length (h : params.Fits) :
    params.remainingLength = params.body.length := by
  have htopic := h.topic
  have htotal := h.total
  rw [maxRemainingLength] at htotal
  rw [params.length_body] at htotal ⊢
  have hencoded : params.topic.encodedLength = params.topic.bytes.length + 2 := by
    rw [MQTTString.encodedLength, Nat.mod_eq_of_lt (by omega)]
  have hidentifier :
      (if params.qos = .qos0 then 0 else 2) = packetIdentifierLength params.qos := rfl
  rw [MQTTPublishParams.remainingLength, hencoded, hidentifier, Nat.mod_eq_of_lt (by omega)]
  omega

/-- The PUBLISH packet for the parameters. -/
def publishPacket (params : MQTTPublishParams) (h : params.Fits) : BrokerPacket where
  controlByte := controlPUBLISH ||| (params.qos.toUInt8 <<< 1)
  field := Varint.encode params.body.length
  body := params.body
  complete := Varint.encode_complete _
  length_le := by
    rw [length_encode_eq_size h.total]
    exact size_le_four _
  value_eq := Varint.value_encode _

/-! ## Writing it -/

/-- A string that fits is written as its length and its bytes. -/
theorem write_string_eq (memory : ByteMemory) {destination lastByte : Nat} (string : MQTTString)
    (hfits : destination + (string.bytes.length + 2) - 1 ≤ lastByte) :
    prvWriteString memory destination lastByte string =
      (destination + 2 + string.bytes.length,
        memory.writeBytes destination
          ([UInt8.ofNat (string.bytes.length >>> 8), UInt8.ofNat string.bytes.length] ++
            string.bytes)) := by
  have hlength := writeBytes_append memory destination
    [UInt8.ofNat (string.bytes.length >>> 8)] [UInt8.ofNat string.bytes.length]
  have hbytes := writeBytes_append memory destination
    [UInt8.ofNat (string.bytes.length >>> 8), UInt8.ofNat string.bytes.length] string.bytes
  simp only [List.length_cons, List.length_nil, Nat.zero_add,
    Nat.reduceAdd] at hlength hbytes
  unfold prvWriteString
  simp only
  rw [if_pos hfits, hlength, List.singleton_append, hbytes]

theorem write_identifier_eq (memory : ByteMemory) (offset : Nat) (identifier : UInt16) :
    writePacketIdentifier memory offset identifier =
      memory.writeBytes offset [(identifier >>> 8).toUInt8, identifier.toUInt8] :=
  writeBytes_append memory offset [(identifier >>> 8).toUInt8] [identifier.toUInt8]

/-- With room for it, `MQTT_Publish` writes the packet. -/
theorem publish_write_eq (h : params.Fits) {fresh : MQTTBuffer}
    (hroom : totalMessageLength (prvSizeOfRemainingLength params.remainingLength)
      params.remainingLength ≤ fresh.effectiveLength) :
    params.write fresh = fresh.cleared.writeBytes 0 (publishPacket params h).bytes := by
  have hremaining := h.remaining_length
  have hmax : params.remainingLength ≤ maxRemainingLength := by
    rw [hremaining]
    exact h.total
  have hsize := length_encode_eq_size hmax
  have hlength := params.length_body
  unfold MQTTPublishParams.write
  simp only
  rw [write_fixed_header_eq _ hmax hroom]
  simp only
  rw [totalMessageLength] at hroom
  rw [write_string_eq _ params.topic (by rw [adjustOffset, MQTTBuffer.lastByte]; omega)]
  simp only
  have hheader : adjustOffset 2 (prvSizeOfRemainingLength params.remainingLength) =
      0 + ((controlPUBLISH ||| (params.qos.toUInt8 <<< 1)) ::
        Varint.encode params.remainingLength).length := by
    rw [List.length_cons, hsize, adjustOffset]
    omega
  have hbytes : (publishPacket params h).bytes =
      ((controlPUBLISH ||| (params.qos.toUInt8 <<< 1)) :: Varint.encode params.remainingLength) ++
        params.body := by
    rw [hremaining]
    rfl
  rw [hbytes, write_identifier_eq, hheader, writeBytes_append]
  generalize (controlPUBLISH ||| (params.qos.toUInt8 <<< 1)) ::
    Varint.encode params.remainingLength = header
  unfold MQTTPublishParams.body
  generalize hstring : [UInt8.ofNat (params.topic.bytes.length >>> 8),
    UInt8.ofNat params.topic.bytes.length] ++ params.topic.bytes = string
  have htopic : 0 + header.length + 2 + params.topic.bytes.length =
      0 + (header ++ string).length := by
    rw [← hstring, List.length_append, List.length_append, List.length_cons, List.length_singleton]
    omega
  rw [← List.append_assoc _ params.topic.bytes, hstring, htopic, writeBytes_append]
  by_cases hqos : params.qos = .qos0
  · rw [if_neg (not_not_intro hqos), if_pos hqos, writeBytes_append, List.append_assoc]
    rfl
  · rw [if_pos hqos, if_neg hqos]
    have hidentifier : 0 + (header ++ string).length + 2 = 0 + (header ++ string ++
        [(params.packetIdentifier >>> 8).toUInt8, params.packetIdentifier.toUInt8]).length := by
      simp only [List.length_append, List.length_cons, List.length_nil]
      omega
    rw [hidentifier, writeBytes_append, List.append_assoc, List.append_assoc]

/-- The buffer of a publish holds the packet. -/
theorem publish_packet_bytes (h : params.Fits) {buffer : MQTTBuffer}
    (hcarries : buffer.Carries (.publish params)) :
    buffer.packet = (publishPacket params h).bytes := by
  obtain ⟨hmax, -, hdataLength, fresh, hdata, hroom⟩ := hcarries
  have hlength : totalMessageLength (prvSizeOfRemainingLength params.remainingLength)
      params.remainingLength = (publishPacket params h).bytes.length := by
    rw [BrokerPacket.length_bytes, totalMessageLength]
    show _ = (Varint.encode params.body.length).length + 1 + params.body.length
    rw [← h.remaining_length, length_encode_eq_size hmax]
    omega
  rw [MQTTBuffer.packet, hdataLength, hdata, publish_write_eq h hroom, hlength]
  exact readBytes_writeBytes _ _ _

/-- The bytes handed to the send function. -/
def handed (outputs : List MQTTOutput) : List UInt8 := (sends outputs).flatMap Prod.fst

/-- A publish that succeeds hands over its packet. -/
theorem publish_handed (h : params.Fits) {c : MQTTContext} {w : W}
    (hsuccess : (mqttPublish user params ⟨c, w, []⟩).1 = .success) :
    handed (mqttPublish user params ⟨c, w, []⟩).2.outputs = (publishPacket params h).bytes := by
  revert hsuccess
  unfold mqttPublish
  split_ifs
  · intro hsuccess
    cases hsuccess
  have hsubmitted := submitted user params.remainingLength params.timeoutTicks
    params.packetIdentifier params.write (.publish params) ⟨c, w, []⟩
  unfold submitPacket
  simp only
  generalize createPacket user params.remainingLength params.timeoutTicks params.packetIdentifier
    params.write ⟨c, w, []⟩ = created at hsubmitted ⊢
  generalize created.2.1 = linked at hsubmitted ⊢
  generalize transmitPacket user created = sent at hsubmitted ⊢
  cases hsubmitted with
  | refused hcode =>
      rw [if_pos (.inl hcode)]
      exact fun hsuccess => absurd hsuccess hcode
  | @sent returnCode s' buffer count t t' hholds hcalls hcontext hcode =>
      have hsent : handed s'.outputs = (publishPacket params h).bytes := by
        rw [← publish_packet_bytes h hholds, hcalls.outputs]
        simp [handed]
      split_ifs
      · intro _
        show handed (prvReturnBuffer user (some buffer.handle) s').outputs = _
        rw [← hsent]
        simp [handed, prvReturnBuffer, emit]
      · exact fun _ => hsent

/-! ## Reading it -/

section Stored

variable {packet : BrokerPacket} {rxBuffer : MQTTBuffer} {c : MQTTContext} {w : W}
  {stored : Session W}

/-- A part of the packet is where it belongs in the buffer. -/
theorem Stored.readBytes_part (h : Stored user packet rxBuffer c w stored)
    {front part back : List UInt8} (hsplit : packet.bytes = front ++ (part ++ back)) :
    rxBuffer.data.readBytes front.length part.length = part := by
  have hlength : front.length + part.length ≤ packet.bytes.length := by
    rw [hsplit, List.length_append, List.length_append]
    omega
  have hread := h.readBytes_eq _ hlength
  rw [hsplit, ← List.append_assoc, ← List.length_append, List.take_left, List.length_append,
    readBytes_add, Nat.zero_add] at hread
  exact (List.append_inj hread (length_readBytes _ _ _)).2

/-- The QoS of a publish reads back from its control byte. -/
theorem publish_control_byte {qos : MQTTQoS} (hqos : qos ≠ .qos2) :
    publishQoS (controlPUBLISH ||| (qos.toUInt8 <<< 1)) = some qos ∧
      (controlPUBLISH ||| (qos.toUInt8 <<< 1)) &&& topNibbleMask = controlPUBLISH := by
  cases qos with
  | qos0 => exact ⟨by decide, by decide⟩
  | qos1 => exact ⟨by decide, by decide⟩
  | qos2 => exact absurd rfl hqos

/-- The handler finds the topic, the message and the identifier that were published. -/
theorem stored_publish_data (hfits : params.Fits)
    (h : Stored user (publishPacket params hfits) rxBuffer c w stored) :
    let publish := receivedPublishData params.qos rxBuffer stored.context.rxMessageState
    publish.topic = params.topic.bytes ∧ publish.message = params.data ∧
      (params.qos = .qos1 → pubACKPacket
          (rxBuffer.data (publish.topicOffset + publish.topicLength))
          (rxBuffer.data (publish.topicOffset + publish.topicLength + 1)) =
        pubACKPacket (params.packetIdentifier >>> 8).toUInt8 params.packetIdentifier.toUInt8) := by
  intro publish
  have htopicLength : publish.topicLength = params.topic.bytes.length := by
    have hlong : 2 ≤ (publishPacket params hfits).body.length := by
      show 2 ≤ params.body.length
      rw [params.length_body]
      omega
    exact (h.topicLength_eq params.qos hlong).trans (word16_length params.topic.length_lt)
  have htopicOffset : publish.topicOffset = (publishPacket params hfits).field.length + 3 :=
    h.topicOffset_eq params.qos
  have hbytes : (publishPacket params hfits).bytes =
      ((publishPacket params hfits).controlByte :: (publishPacket params hfits).field) ++
        params.body := rfl
  generalize publishPacket params hfits = packet at *
  generalize hidentifier : (if params.qos = .qos0 then []
    else [(params.packetIdentifier >>> 8).toUInt8, params.packetIdentifier.toUInt8]) = identifier
  have hcount : identifier.length = packetIdentifierLength params.qos := by
    rw [← hidentifier, packetIdentifierLength]
    split_ifs <;> rfl
  -- The length of the topic ends where the topic begins.
  obtain ⟨front, hfront, hsplit⟩ : ∃ front, front.length = publish.topicOffset ∧
      packet.bytes = front ++ (params.topic.bytes ++ (identifier ++ params.data)) := by
    refine ⟨packet.controlByte :: packet.field ++
      [UInt8.ofNat (params.topic.bytes.length >>> 8), UInt8.ofNat params.topic.bytes.length], ?_,
        ?_⟩
    · rw [htopicOffset, List.length_append]
      rfl
    · rw [hbytes, MQTTPublishParams.body, hidentifier, List.append_assoc]
  have hend : (front ++ params.topic.bytes).length = publish.topicOffset + publish.topicLength := by
    rw [List.length_append, hfront, htopicLength]
  refine ⟨?_, ?_, ?_⟩
  · rw [MQTTPublishData.topic, htopicLength, ← hfront]
    exact h.readBytes_part hsplit
  · have hwhole : packet.bytes =
        (front ++ params.topic.bytes ++ identifier) ++ (params.data ++ []) := by
      rw [hsplit, List.append_nil, List.append_assoc, List.append_assoc]
    have hdata : publish.dataOffset = (front ++ params.topic.bytes ++ identifier).length := by
      rw [List.length_append, hend, hcount]
      rfl
    have htotal : publish.dataLength = params.data.length := by
      have hbound := packet.length_bytes_lt
      have hlength := congrArg List.length hwhole
      rw [List.append_nil, List.length_append] at hlength
      show sub32 stored.context.rxMessageState.totalMessageLength publish.dataOffset = _
      rw [h.total, hdata, sub32]
      omega
    rw [MQTTPublishData.message, hdata, htotal]
    exact h.readBytes_part hwhole
  · intro hqos
    have hpair : identifier =
        [(params.packetIdentifier >>> 8).toUInt8, params.packetIdentifier.toUInt8] := by
      rw [← hidentifier, if_neg (by rw [hqos]; decide)]
    have hread := h.readBytes_part (hsplit.trans (List.append_assoc _ _ _).symm)
    rw [hend, hpair] at hread
    obtain ⟨hmsb, hrest⟩ := List.cons.inj hread
    obtain ⟨hlsb, -⟩ := List.cons.inj hrest
    exact congrArg₂ pubACKPacket hmsb hlsb

end Stored

/-! ## What is seen of it -/

/-- Events and sent data. -/
def MQTTOutput.IsVisible : MQTTOutput → Bool
  | .event .. => true
  | .sent .. => true
  | _ => false

/-- The events that are raised and the data that is sent. -/
def visible (outputs : List MQTTOutput) : List MQTTOutput := outputs.filter MQTTOutput.IsVisible

/-- The event that a callback is called with. -/
def MQTTOutput.delivered : MQTTOutput → Option MQTTEvent
  | .eventCallback reported _ => some reported
  | .publishCallback _ _ publish _ => some (.publish publish)
  | _ => none

/-- Only one event is delivered. -/
def OnlyDelivers (event : MQTTEvent) (outputs : List MQTTOutput) : Prop :=
  ∀ output ∈ outputs, ∀ other, output.delivered = some other → other = event

/-- What is seen of a step that calls callbacks for one event only. -/
def Session.Shows (event : MQTTEvent) (seen : List MQTTOutput) (s s' : Session W) : Prop :=
  ∃ outputs, s'.outputs = s.outputs ++ outputs ∧ visible outputs = seen ∧
    OnlyDelivers event outputs

/-- Neither an event nor sent data, and no callback for another event. -/
def MQTTOutput.BelongsTo (event : MQTTEvent) (output : MQTTOutput) : Prop :=
  output.IsVisible = false ∧ ∀ other, output.delivered = some other → other = event

section Visible

variable {event : MQTTEvent} {s s' s'' : Session W} {first second : List MQTTOutput}

theorem Session.Shows.trans (hfirst : Shows event first s s')
    (hsecond : Shows event second s' s'') : Shows event (first ++ second) s s'' := by
  obtain ⟨outputs, heq, rfl, honly⟩ := hfirst
  obtain ⟨outputs', heq', rfl, honly'⟩ := hsecond
  refine ⟨outputs ++ outputs', by rw [heq', heq, List.append_assoc], List.filter_append .., ?_⟩
  intro output hmem
  rcases List.mem_append.mp hmem with hmem | hmem
  · exact honly output hmem
  · exact honly' output hmem

/-- Nothing is seen of outputs that belong to the event. -/
theorem Session.Emits.shows (h : Emits (MQTTOutput.BelongsTo event) s s') :
    Shows event [] s s' := by
  obtain ⟨outputs, heq, hbelongs⟩ := h
  refine ⟨outputs, heq, ?_, fun output hmem => (hbelongs output hmem).2⟩
  rw [visible, List.filter_eq_nil_iff]
  intro output hmem
  rw [(hbelongs output hmem).1]
  exact Bool.false_ne_true

/-- Events and sent data are seen. -/
theorem shows_emit {output : MQTTOutput} (hvisible : output.IsVisible = true)
    (hdelivered : output.delivered = none) (s : Session W) :
    Shows event [output] s (s.emit output) := by
  refine ⟨[output], rfl, List.filter_singleton.trans (by rw [hvisible]; rfl), ?_⟩
  intro other hmem later hlater
  rw [List.mem_singleton.mp hmem, hdelivered] at hlater
  cases hlater

/-- Marking an access is not seen. -/
theorem shows_access (offset count : Nat) (s : Session W) :
    Shows event [] s (s.emit (.access offset count)) :=
  (emits_emit ⟨rfl, nofun⟩ s).shows

/-- A publish is handed to callbacks, and to callbacks only. -/
theorem emits_invoke_publish (user : MQTTInitParams W) (publish : MQTTPublishData)
    (s : Session W) :
    Emits (MQTTOutput.BelongsTo (.publish publish)) (s.emit (.event (.publish publish)))
      (prvInvokeCallback user (.publish publish) s).2 := by
  have hcalled (callback context) (result : Bool) : MQTTOutput.BelongsTo (.publish publish)
      (.publishCallback callback context publish result) :=
    ⟨rfl, fun other hother => (Option.some.inj hother).symm⟩
  have hsubscriptions : Emits (MQTTOutput.BelongsTo (.publish publish))
      (s.emit (.event (.publish publish)))
      (prvInvokeSubscriptionCallbacks user publish (s.emit (.event (.publish publish)))).2.2 := by
    unfold prvInvokeSubscriptionCallbacks
    simp only
    split_ifs
    · exact emits_invoke_matching hcalled _ _ _ _
    · exact (emits_invoke_matching hcalled _ _ _ _).trans (emits_invoke_matching hcalled _ _ _ _)
  unfold prvInvokeCallback
  simp only
  split_ifs
  · exact hsubscriptions
  · refine hsubscriptions.trans ?_
    unfold invokeEventCallback
    cases user.callback with
    | none => exact .refl _
    | some callback =>
        exact emits_emit ⟨rfl, fun other hother => (Option.some.inj hother).symm⟩ _

/-- Sending is seen as the data with the number of its bytes that are accepted. -/
theorem shows_send (user : MQTTInitParams W) (data : List UInt8) (s : Session W) :
    ∃ count, Shows event [.sent data count] s (prvSendData user data s).2 := by
  obtain ⟨count, t, hcalls, -⟩ := send_data_spec user data s
  have hbelongs : ∀ output ∈ if count = data.length then user.clock t else [],
      output.BelongsTo event := by
    unfold MQTTInitParams.clock
    intro output hmem
    split_ifs at hmem
    · rw [List.mem_singleton.mp hmem]
      exact ⟨rfl, nofun⟩
    · exact absurd hmem List.not_mem_nil
    · exact absurd hmem List.not_mem_nil
  have hclock : Emits (MQTTOutput.BelongsTo event) (s.emit (.sent data count))
      (prvSendData user data s).2 :=
    ⟨_, hcalls.outputs.trans (List.append_assoc _ [MQTTOutput.sent data count] _).symm, hbelongs⟩
  exact ⟨count, (shows_emit rfl rfl s).trans hclock.shows⟩

/-- A publish raises one event, after its acknowledgment if its QoS asks for one. -/
theorem process_publish_shows (user : MQTTInitParams W) {rxBuffer : MQTTBuffer} {qos : MQTTQoS}
    (hqos : publishQoS rxBuffer.controlByte = some qos) (s : Session W) :
    let publish := receivedPublishData qos rxBuffer s.context.rxMessageState
    let identifierOffset := publish.topicOffset + publish.topicLength
    ∃ count, Shows (.publish publish)
      ((if qos = .qos1 then
        [.sent (pubACKPacket (rxBuffer.data identifierOffset)
          (rxBuffer.data (identifierOffset + 1))) count] else []) ++ [.event (.publish publish)])
      s (prvProcessReceivedPublish user rxBuffer s) := by
  intro publish identifierOffset
  unfold prvProcessReceivedPublish
  rw [hqos]
  simp only
  obtain ⟨count, hack⟩ : ∃ count, Shows (.publish publish)
      (if qos = .qos1 then
        [.sent (pubACKPacket (rxBuffer.data identifierOffset)
          (rxBuffer.data (identifierOffset + 1))) count] else [])
      s (if qos = .qos1 then
          (prvSendData user (pubACKPacket (rxBuffer.data identifierOffset)
            (rxBuffer.data (identifierOffset + 1)))
            ((s.emit (.access (publish.topicOffset - 2) 2)).emit
              (.access identifierOffset 2))).2
        else s.emit (.access (publish.topicOffset - 2) 2)) := by
    by_cases hone : qos = .qos1
    · simp only [if_pos hone]
      obtain ⟨count, hsend⟩ := @shows_send W (.publish publish) user
        (pubACKPacket (rxBuffer.data identifierOffset) (rxBuffer.data (identifierOffset + 1)))
        ((s.emit (.access (publish.topicOffset - 2) 2)).emit (.access identifierOffset 2))
      exact ⟨count, ((shows_access _ _ s).trans (shows_access _ _ _)).trans hsend⟩
    · simp only [if_neg hone]
      exact ⟨0, shows_access _ _ s⟩
  refine ⟨count, hack.trans ?_⟩
  generalize (if qos = .qos1 then _ else s.emit (.access (publish.topicOffset - 2) 2)) =
    acknowledged
  have hhanded : Shows (.publish publish) [] acknowledged
      ((acknowledged.emit (.access publish.topicOffset publish.topicLength)).emit
        (.access publish.dataOffset publish.dataLength)) :=
    (shows_access _ _ _).trans (shows_access _ _ _)
  refine hhanded.trans (?_ : Shows (.publish publish) [.event (.publish publish)] _ _)
  generalize (acknowledged.emit (.access publish.topicOffset publish.topicLength)).emit
    (.access publish.dataOffset publish.dataLength) = handed
  have hinvoked : Shows (.publish publish) [.event (.publish publish)] handed
      (prvInvokeCallback user (.publish publish) handed).2 :=
    (shows_emit rfl rfl handed).trans (emits_invoke_publish user publish handed).shows
  refine hinvoked.trans (?_ : Shows (.publish publish) [] _ _)
  generalize prvInvokeCallback user (.publish publish) handed = answer
  split_ifs
  · exact (emits_emit ⟨rfl, nofun⟩ _).shows
  · cases answer.2.context.rxHandle with
    | none => exact (Emits.refl _).shows
    | some handle => exact (emits_emit ⟨rfl, nofun⟩ _).shows

end Visible

/-! ## The round trip -/

/-- The bytes of a successful publish, in any pieces, reach a connected client that has a buffer for
them as one publish event with the topic, the message and the QoS of the publish. The answer is one
PUBACK with its identifier for QoS 1 and nothing for QoS 0. -/
theorem publish_round_trip {V W : Type} (sender : MQTTInitParams V) (receiver : MQTTInitParams W)
    (params : MQTTPublishParams) (hqos : params.qos ≠ .qos2) (hfits : params.Fits)
    (publisher : MQTTContext) (v : V)
    (hsuccess : (mqttPublish sender params ⟨publisher, v, []⟩).1 = .success)
    (c : MQTTContext) (hconnected : c.connectionState = .connected) (hboundary : AtBoundary c)
    (w : W) (chunks : List (List UInt8))
    (hchunks : chunks.flatten = handed (mqttPublish sender params ⟨publisher, v, []⟩).2.outputs)
    (hgranted : (receiver.getBuffer
      ((chunks.flatten.length + sizeofMQTTBufferMetadata) % 2 ^ 32) w).1 ≠ none) :
    ∃ s' publish count, parseChunks receiver chunks ⟨c, w, []⟩ = some s' ∧
      publish.topic = params.topic.bytes ∧ publish.message = params.data ∧
      publish.qos = params.qos ∧
      visible s'.outputs =
        (if params.qos = .qos1 then
          [.sent (pubACKPacket (params.packetIdentifier >>> 8).toUInt8
            params.packetIdentifier.toUInt8) count] else []) ++ [.event (.publish publish)] ∧
      OnlyDelivers (.publish publish) s'.outputs := by
  rw [publish_handed hfits hsuccess] at hchunks
  have hopen : c.connectionState ≠ .notConnected := by
    rw [hconnected]
    decide
  have hbody : (publishPacket params hfits).body ≠ [] := List.cons_ne_nil _ _
  rw [hchunks] at hgranted
  obtain ⟨rxBuffer, stored, hstored, hprocess⟩ := process_packet_stored c hbody hgranted
  obtain ⟨htopic, hmessage, hanswer⟩ := stored_publish_data hfits hstored
  obtain ⟨hcontrol, htype⟩ := publish_control_byte hqos
  have hcontrol : publishQoS rxBuffer.controlByte = some params.qos := by
    rw [hstored.controlByte_eq]
    exact hcontrol
  have htype : rxBuffer.packetType = controlPUBLISH := by
    rw [hstored.packetType_eq]
    exact htype
  have hstarts : Shows (.publish (receivedPublishData params.qos rxBuffer
      stored.context.rxMessageState)) [] ⟨c, w, []⟩ stored := by
    refine ⟨_, hstored.obtained.outputs, rfl, ?_⟩
    intro output hmem later hlater
    rw [List.mem_singleton.mp hmem] at hlater
    cases hlater
  obtain ⟨count, hshows⟩ := process_publish_shows receiver hcontrol
    ((stored.emit (.handled rxBuffer.packet)).emit (.access 0 1))
  have hprocessed := (hstarts.trans
    ((emits_emit ⟨rfl, nofun⟩ stored).trans (emits_emit ⟨rfl, nofun⟩ _)).shows).trans hshows
  obtain ⟨outputs, houtputs, hvisible, honly⟩ := hprocessed
  have hwhole : (processPacket receiver (publishPacket params hfits).received ⟨c, w, []⟩).outputs =
      outputs := by
    rw [hprocess]
    unfold prvProcessReceivedMQTTPacket
    simp only
    rw [if_pos htype]
    exact houtputs
  refine ⟨_, _, count, parse_chunks_packet receiver _ hchunks hboundary hopen, htopic, hmessage,
    rfl, ?_, ?_⟩
  · rw [hwhole, hvisible, List.nil_append]
    split_ifs with hone
    · rw [← hanswer hone]
      rfl
    · rfl
  · rw [hwhole]
    exact honly

/-- A QoS 1 publish on the topic "a". -/
def acknowledgedPublish : MQTTPublishParams where
  topic := benchPublish.topic
  qos := .qos1
  data := benchPublish.data
  length_lt := benchPublish.length_lt
  packetIdentifier := 258
  timeoutTicks := 50

theorem publish_round_trip_in_pieces :
    ∃ publisher c s' publish count,
      parseChunks benchUser [[0x32, 6, 0], [1, 0x61, 1, 2], [0x62]] ⟨c, ⟨5, 20, 100, false⟩, []⟩ =
        some s' ∧
      (mqttPublish benchUser acknowledgedPublish ⟨publisher, ⟨3, 12, 8, false⟩, []⟩).1 = .success ∧
      publish.topic = [0x61] ∧ publish.message = [0x62] ∧ publish.qos = .qos1 ∧
      visible s'.outputs = [.sent (pubACKPacket 1 2) count, .event (.publish publish)] := by
  have hconnected : (replayed benchUser acceptedClient (mqttInit blankContext)).2.connectionState =
      .connected := by decide +kernel
  have hsuccess : (mqttPublish benchUser acknowledgedPublish
      ⟨(replayed benchUser acceptedClient (mqttInit blankContext)).2, ⟨3, 12, 8, false⟩, []⟩).1 =
      .success := by decide +kernel
  obtain ⟨s', publish, count, hparse, htopic, hmessage, hqos, hvisible, -⟩ :=
    publish_round_trip benchUser benchUser acknowledgedPublish (by decide)
      ⟨by decide, by decide⟩ _ ⟨3, 12, 8, false⟩ hsuccess
      (replayed benchUser acceptedClient (mqttInit blankContext)).2 hconnected ⟨rfl, rfl, rfl⟩
      ⟨5, 20, 100, false⟩ [[0x32, 6, 0], [1, 0x61, 1, 2], [0x62]] (by decide +kernel)
      (by decide +kernel)
  exact ⟨_, _, s', publish, count, hparse, hsuccess, htopic, hmessage, hqos, hvisible⟩

end TivaAws.Mqtt
