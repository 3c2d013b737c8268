import TivaAws.Mqtt.Operations

/-!
# The packets the operations write

A writer puts the fixed header at the start of a buffer and never writes over it again
(`WritesPacket`). Every packet with a permitted "Remaining Length" is therefore framed: its length
field says how many bytes follow (`WritesPacket.framed`). `MQTTBuffer.Carries` says which packet
an operation leaves in its buffer.
-/

namespace TivaAws.Mqtt

open ByteMemory

/-! ## Strings and identifiers -/

/-- A string is written at its destination or above. -/
theorem write_string_below (memory : ByteMemory) {destination lastByte i : Nat}
    (string : MQTTString) (h : i < destination) :
    (prvWriteString memory destination lastByte string).2 i = memory i := by
  unfold prvWriteString
  simp only
  split_ifs
  · show ByteMemory.writeBytes _ _ _ i = _
    rw [writeBytes_below _ (by omega), writeBytes_below _ (by omega), writeBytes_below _ h]
  · rfl

theorem write_string_le (memory : ByteMemory) (destination lastByte : Nat) (string : MQTTString) :
    destination ≤ (prvWriteString memory destination lastByte string).1 := by
  unfold prvWriteString
  simp only
  split_ifs
  · omega
  · exact le_refl _

theorem write_identifier_below (memory : ByteMemory) {offset i : Nat} (identifier : UInt16)
    (h : i < offset) : writePacketIdentifier memory offset identifier i = memory i := by
  unfold writePacketIdentifier
  rw [writeBytes_below _ (by omega), writeBytes_below _ h]

/-! ## The fixed header -/

/-- With room for it, the fixed header is the control byte and the encoded length. -/
theorem write_fixed_header_eq (controlByte : UInt8) {remainingLength : Nat} {buffer : MQTTBuffer}
    (hmax : remainingLength ≤ maxRemainingLength)
    (hroom : totalMessageLength (prvSizeOfRemainingLength remainingLength) remainingLength ≤
      buffer.effectiveLength) :
    writeFixedHeader controlByte remainingLength buffer =
      (prvSizeOfRemainingLength remainingLength,
        buffer.cleared.writeBytes 0 (controlByte :: Varint.encode remainingLength)) := by
  have hsize := length_encode_eq_size hmax
  unfold writeFixedHeader
  rw [encode_remaining_length_eq _ hmax, hsize]
  · have happend := writeBytes_append buffer.cleared 0 [controlByte] (Varint.encode remainingLength)
    simp only [List.length_singleton, Nat.zero_add, List.singleton_append] at happend
    rw [happend]
  · rw [hsize]
    simp only [totalMessageLength] at hroom
    simp only [MQTTBuffer.lastByte]
    omega

/-- The bytes are one whole packet: a control byte, a "Remaining Length" of at most four bytes
and as many bytes as it says. -/
def Framed (packet : List UInt8) : Prop :=
  ∃ controlByte field body, packet = controlByte :: (field ++ body) ∧
    Varint.Complete field ∧ field.length ≤ remainingLengthMaxBytes ∧
    Varint.value field = body.length

/-- No packet is the start of another. -/
theorem framed_prefix_code : PrefixCode.IsPrefixCode Framed := by
  refine ⟨?_, ?_⟩
  · rintro u v ⟨controlByte, field, body, rfl, hfield, -, hvalue⟩
      ⟨controlByte', field', body', rfl, hfield', -, hvalue'⟩ ⟨rest, hrest⟩
    rw [List.cons_append, List.append_assoc] at hrest
    obtain ⟨rfl, htail⟩ := List.cons.inj hrest
    obtain ⟨rfl, hbody⟩ := Varint.complete_prefix_code.eq_of_append_eq hfield hfield' htail
    have hlength := congrArg List.length hbody
    rw [List.length_append, ← hvalue, ← hvalue'] at hlength
    have hnone : rest = [] := List.length_eq_zero_iff.mp (by omega)
    rw [← hbody, hnone, List.append_nil]
  · rintro u ⟨controlByte, field, body, rfl, -⟩
    exact List.cons_ne_nil _ _

/-- The writer leaves the fixed header that it has written alone. -/
def WritesPacket (controlByte : UInt8) (remainingLength : Nat)
    (write : MQTTBuffer → ByteMemory) : Prop :=
  ∀ buffer i, i < 1 + (writeFixedHeader controlByte remainingLength buffer).1 →
    write buffer i = (writeFixedHeader controlByte remainingLength buffer).2 i

section Writer

variable {controlByte : UInt8} {remainingLength : Nat} {write : MQTTBuffer → ByteMemory}
  {buffer : MQTTBuffer}

/-- The packet starts with the control byte and the encoded length. -/
theorem WritesPacket.header (h : WritesPacket controlByte remainingLength write)
    (hmax : remainingLength ≤ maxRemainingLength)
    (hroom : totalMessageLength (prvSizeOfRemainingLength remainingLength) remainingLength ≤
      buffer.effectiveLength) :
    (write buffer).readBytes 0 (1 + prvSizeOfRemainingLength remainingLength) =
      controlByte :: Varint.encode remainingLength := by
  have heq := write_fixed_header_eq controlByte hmax hroom
  have hlength : (controlByte :: Varint.encode remainingLength).length =
      1 + prvSizeOfRemainingLength remainingLength := by
    rw [List.length_cons, length_encode_eq_size hmax, Nat.add_comm]
  have hread := readBytes_writeBytes buffer.cleared 0 (controlByte :: Varint.encode remainingLength)
  rw [hlength] at hread
  rw [← hread]
  refine readBytes_congr _ ?_
  intro i _ hi
  have hbyte := h buffer i
  rw [heq] at hbyte
  exact hbyte (by simpa using hi)

theorem WritesPacket.control_byte (h : WritesPacket controlByte remainingLength write)
    (hmax : remainingLength ≤ maxRemainingLength)
    (hroom : totalMessageLength (prvSizeOfRemainingLength remainingLength) remainingLength ≤
      buffer.effectiveLength) : write buffer 0 = controlByte := by
  have hheader := h.header hmax hroom
  rw [readBytes_add] at hheader
  exact (List.cons.inj hheader).1

/-- Every written packet is framed. -/
theorem WritesPacket.framed (h : WritesPacket controlByte remainingLength write)
    (hmax : remainingLength ≤ maxRemainingLength)
    (hroom : totalMessageLength (prvSizeOfRemainingLength remainingLength) remainingLength ≤
      buffer.effectiveLength) :
    Framed ((write buffer).readBytes 0
      (totalMessageLength (prvSizeOfRemainingLength remainingLength) remainingLength)) := by
  refine ⟨controlByte, Varint.encode remainingLength,
    (write buffer).readBytes (1 + prvSizeOfRemainingLength remainingLength) remainingLength,
    ?_, Varint.encode_complete _, ?_, ?_⟩
  · rw [totalMessageLength, readBytes_add, h.header hmax hroom, Nat.zero_add]
    rfl
  · rw [length_encode_eq_size hmax]
    exact size_le_four _
  · rw [Varint.value_encode, length_readBytes]

end Writer

/-! ## The four writers -/

theorem connect_writes_packet (params : MQTTConnectParams) :
    WritesPacket (controlCONNECT ||| flagsCONNECT) params.remainingLength params.write := by
  intro buffer i hi
  have hoffset : ∀ x, 2 ≤ x → i < adjustOffset x
      (writeFixedHeader (controlCONNECT ||| flagsCONNECT) params.remainingLength buffer).1 := by
    intro x hx
    simp only [adjustOffset]
    omega
  have hclient := write_string_le
  unfold MQTTConnectParams.write
  simp only
  have huser : ∀ {memory : ByteMemory} {destination : Nat}, adjustOffset 12
      (writeFixedHeader (controlCONNECT ||| flagsCONNECT) params.remainingLength buffer).1 ≤
        destination →
      (prvWriteString memory destination buffer.lastByte params.userName).2 i = memory i := by
    intro memory destination hle
    exact write_string_below _ _ (Nat.lt_of_lt_of_le (hoffset 12 (by omega)) hle)
  split_ifs
  · rw [huser (hclient _ _ _ _), write_string_below _ _ (hoffset 12 (by omega)),
      writeBytes_below _ (hoffset 11 (by omega)), writeBytes_below _ (hoffset 10 (by omega)),
      writeBytes_below _ (hoffset 9 (by omega)), writeBytes_below _ (hoffset 2 (by omega))]
  · rw [write_string_below _ _ (hoffset 12 (by omega)),
      writeBytes_below _ (hoffset 11 (by omega)), writeBytes_below _ (hoffset 10 (by omega)),
      writeBytes_below _ (hoffset 2 (by omega))]

theorem subscribe_writes_packet (params : MQTTSubscribeParams) :
    WritesPacket (controlSUBSCRIBE ||| flagsSUBSCRIBE) params.remainingLength params.write := by
  intro buffer i hi
  unfold MQTTSubscribeParams.write
  generalize writeFixedHeader (controlSUBSCRIBE ||| flagsSUBSCRIBE) params.remainingLength buffer
    = header at hi ⊢
  have hidentifier : i < adjustOffset 2 header.1 := by
    simp only [adjustOffset]
    omega
  have htopic : i < adjustOffset 4 header.1 := by
    simp only [adjustOffset]
    omega
  rw [writeBytes_below _ (Nat.lt_of_lt_of_le htopic (write_string_le _ _ _ _)),
    write_string_below _ _ htopic, write_identifier_below _ _ hidentifier]

theorem unsubscribe_writes_packet (params : MQTTUnsubscribeParams) :
    WritesPacket (controlUNSUBSCRIBE ||| flagsUNSUBSCRIBE) params.remainingLength
      params.write := by
  intro buffer i hi
  unfold MQTTUnsubscribeParams.write
  generalize writeFixedHeader (controlUNSUBSCRIBE ||| flagsUNSUBSCRIBE) params.remainingLength
    buffer = header at hi ⊢
  have hidentifier : i < adjustOffset 2 header.1 := by
    simp only [adjustOffset]
    omega
  have htopic : i < adjustOffset 4 header.1 := by
    simp only [adjustOffset]
    omega
  rw [write_string_below _ _ htopic, write_identifier_below _ _ hidentifier]

theorem publish_writes_packet (params : MQTTPublishParams) :
    WritesPacket (controlPUBLISH ||| (params.qos.toUInt8 <<< 1)) params.remainingLength
      params.write := by
  intro buffer i hi
  unfold MQTTPublishParams.write
  generalize writeFixedHeader (controlPUBLISH ||| (params.qos.toUInt8 <<< 1))
    params.remainingLength buffer = header at hi ⊢
  have htopic : i < adjustOffset 2 header.1 := by
    simp only [adjustOffset]
    omega
  have hafter : i < (prvWriteString header.2 (adjustOffset 2 header.1) buffer.lastByte
      params.topic).1 := Nat.lt_of_lt_of_le htopic (write_string_le _ _ _ _)
  split_ifs
  · rw [writeBytes_below _ (by omega), write_identifier_below _ _ hafter,
      write_string_below _ _ htopic]
  · rw [writeBytes_below _ hafter, write_string_below _ _ htopic]

/-! ## The packet of an operation -/

/-- The buffer holds a packet that a writer has written into a fresh buffer with room for it. -/
structure MQTTBuffer.Holds (buffer : MQTTBuffer) (remainingLength : Nat)
    (packetIdentifier : UInt16) (write : MQTTBuffer → ByteMemory) : Prop where
  permitted : remainingLength ≤ maxRemainingLength
  identifier : buffer.bufferState.packetIdentifier = packetIdentifier
  dataLength : buffer.dataLength =
    totalMessageLength (prvSizeOfRemainingLength remainingLength) remainingLength
  written : ∃ fresh : MQTTBuffer, buffer.data = write fresh ∧
    totalMessageLength (prvSizeOfRemainingLength remainingLength) remainingLength ≤
      fresh.effectiveLength

section Holds

variable {buffer : MQTTBuffer} {remainingLength : Nat} {packetIdentifier : UInt16}
  {write : MQTTBuffer → ByteMemory} {controlByte : UInt8}

theorem MQTTBuffer.Holds.control_byte (h : buffer.Holds remainingLength packetIdentifier write)
    (hwrite : WritesPacket controlByte remainingLength write) :
    buffer.controlByte = controlByte := by
  obtain ⟨fresh, hdata, hroom⟩ := h.written
  rw [MQTTBuffer.controlByte, hdata]
  exact hwrite.control_byte h.permitted hroom

theorem MQTTBuffer.Holds.framed (h : buffer.Holds remainingLength packetIdentifier write)
    (hwrite : WritesPacket controlByte remainingLength write) : Framed buffer.packet := by
  obtain ⟨fresh, hdata, hroom⟩ := h.written
  rw [MQTTBuffer.packet, hdata, h.dataLength]
  exact hwrite.framed h.permitted hroom

end Holds

/-- The buffer holds the packet of an operation. -/
def MQTTBuffer.Carries (buffer : MQTTBuffer) : Op → Prop
  | .connect params =>
      buffer.Holds params.remainingLength params.packetIdentifier params.write
  | .subscribe params =>
      buffer.Holds params.remainingLength params.packetIdentifier params.write
  | .unsubscribe params =>
      buffer.Holds params.remainingLength params.packetIdentifier params.write
  | .publish params =>
      buffer.Holds params.remainingLength params.packetIdentifier params.write
  | _ => False

theorem MQTTBuffer.Carries.framed {buffer : MQTTBuffer} {op : Op} (h : buffer.Carries op) :
    Framed buffer.packet := by
  cases op with
  | connect params => exact MQTTBuffer.Holds.framed h (connect_writes_packet params)
  | subscribe params => exact MQTTBuffer.Holds.framed h (subscribe_writes_packet params)
  | unsubscribe params => exact MQTTBuffer.Holds.framed h (unsubscribe_writes_packet params)
  | publish params => exact MQTTBuffer.Holds.framed h (publish_writes_packet params)
  | disconnect => exact absurd h id
  | periodic currentTickCount => exact absurd h id
  | parseReceivedData data => exact absurd h id
  | returnBuffer handle => exact absurd h id

/-! ## The filter of a request -/

/-- The two bytes of a length read back. -/
theorem word16_length {length : Nat} (h : length < 2 ^ 16) :
    (word16 (UInt8.ofNat (length >>> 8)) (UInt8.ofNat length)).toNat = length := by
  have hmsb : (UInt8.ofNat (length >>> 8)).toNat = length / 256 := by
    rw [UInt8.toNat_ofNat', Nat.shiftRight_eq_div_pow]
    omega
  have hlsb : (UInt8.ofNat length).toNat = length % 256 := UInt8.toNat_ofNat'
  have hlow : length % 256 < 2 ^ 8 := Nat.mod_lt _ (by omega)
  have height : (8 : UInt16).toNat % 16 = 8 := rfl
  rw [word16, UInt16.toNat_or, UInt16.toNat_shiftLeft, UInt8.toNat_toUInt16, UInt8.toNat_toUInt16,
    hmsb, hlsb, height, Nat.shiftLeft_eq, Nat.mod_eq_of_lt (by omega), Nat.mul_comm,
    ← Nat.two_pow_add_eq_or_of_lt hlow]
  omega

/-- A string that fits is written with its length in front. -/
theorem write_string_reads (memory : ByteMemory) {destination lastByte : Nat} (string : MQTTString)
    (hfits : destination + (string.bytes.length + 2) - 1 ≤ lastByte) :
    let written := (prvWriteString memory destination lastByte string).2
    (word16 (written destination) (written (destination + 1))).toNat = string.bytes.length ∧
      written.readBytes (destination + 2) string.bytes.length = string.bytes := by
  intro written
  have hwritten : written = ((memory.writeBytes destination
      [UInt8.ofNat (string.bytes.length >>> 8)]).writeBytes (destination + 1)
      [UInt8.ofNat string.bytes.length]).writeBytes (destination + 2) string.bytes := by
    simp only [written, prvWriteString, if_pos hfits]
  rw [hwritten]
  refine ⟨?_, readBytes_writeBytes _ _ _⟩
  have hmsb : destination < destination + 1 := Nat.lt_succ_self _
  rw [writeBytes_below _ (by omega), writeBytes_below _ hmsb, writeBytes_single,
    writeBytes_below _ (by omega), writeBytes_single]
  exact word16_length string.length_lt

/-- A buffer with room for the packet has room for the string that the packet counts. -/
theorem topic_fits {remainingLength : Nat} {fresh : MQTTBuffer} {topic : MQTTString}
    (hcounted : 4 + topic.bytes.length ≤ remainingLength)
    (hroom : totalMessageLength (prvSizeOfRemainingLength remainingLength) remainingLength ≤
      fresh.effectiveLength) :
    adjustOffset 4 (prvSizeOfRemainingLength remainingLength) + (topic.bytes.length + 2) - 1 ≤
      fresh.lastByte := by
  rw [totalMessageLength] at hroom
  rw [adjustOffset, MQTTBuffer.lastByte]
  omega

/-- The filter of a SUBSCRIBE or UNSUBSCRIBE packet reads back when the writer puts it after the
packet identifier and the length of the packet counts it in full. -/
theorem requested_topic_filter {controlByte : UInt8} {remainingLength : Nat}
    {write : MQTTBuffer → ByteMemory} {buffer fresh : MQTTBuffer}
    (hwrite : WritesPacket controlByte remainingLength write)
    (hmax : remainingLength ≤ maxRemainingLength) (hdata : buffer.data = write fresh)
    (hroom : totalMessageLength (prvSizeOfRemainingLength remainingLength) remainingLength ≤
      fresh.effectiveLength) {topic : MQTTString}
    (hcounted : 4 + topic.bytes.length ≤ remainingLength)
    (hwritten : ∃ memory, ∀ i, i < adjustOffset 6 (prvSizeOfRemainingLength remainingLength) +
        topic.bytes.length → write fresh i =
      (prvWriteString memory (adjustOffset 4 (prvSizeOfRemainingLength remainingLength))
        fresh.lastByte topic).2 i) :
    requestedTopicFilter buffer = topic.bytes := by
  obtain ⟨memory, htopic⟩ := hwritten
  have hsize := length_encode_eq_size hmax
  have hfield : buffer.data.readBytes 1 (prvSizeOfRemainingLength remainingLength) =
      Varint.encode remainingLength := by
    have hheader := hwrite.header hmax hroom
    rw [readBytes_add] at hheader
    rw [hdata]
    exact (List.cons.inj hheader).2
  -- The length field is read back from the packet, and its size says where the topic is.
  have hdecode : (prvDecodeRemainingLength fun i => buffer.data (1 + i)).1 =
      prvSizeOfRemainingLength remainingLength := by
    rw [decode_remaining_length_complete (Varint.encode_complete remainingLength) ?_ ?_, hsize]
    · rw [hsize]
      exact size_le_four _
    · rw [hsize, ← hfield]
      simp [readBytes]
  obtain ⟨hlength, hbytes⟩ := write_string_reads memory topic (topic_fits hcounted hroom)
  unfold requestedTopicFilter
  simp only [hdecode]
  generalize prvSizeOfRemainingLength remainingLength = size at htopic hlength hbytes ⊢
  have hfive : adjustOffset 5 size = adjustOffset 4 size + 1 := by
    rw [adjustOffset, adjustOffset]
    omega
  have hsix : adjustOffset 6 size = adjustOffset 4 size + 2 := by
    rw [adjustOffset, adjustOffset]
    omega
  rw [hsix] at htopic
  rw [hdata, hfive, hsix, htopic _ (by omega), htopic _ (by omega), hlength]
  refine Eq.trans (readBytes_congr _ ?_) hbytes
  intro i _ hi
  exact htopic i hi

theorem subscribe_topic_filter {buffer : MQTTBuffer} {params : MQTTSubscribeParams}
    (h : buffer.Carries (.subscribe params)) (hlength : params.topic.bytes.length + 2 < 2 ^ 16) :
    requestedTopicFilter buffer = params.topic.bytes := by
  obtain ⟨hmax, -, -, fresh, hdata, hroom⟩ := h
  have hcounted : 4 + params.topic.bytes.length ≤ params.remainingLength := by
    rw [MQTTSubscribeParams.remainingLength, MQTTString.encodedLength, Nat.mod_eq_of_lt hlength]
    omega
  refine requested_topic_filter (subscribe_writes_packet params) hmax hdata hroom hcounted ⟨?_, ?_⟩
  · exact writePacketIdentifier (writeFixedHeader (controlSUBSCRIBE ||| flagsSUBSCRIBE)
      params.remainingLength fresh).2
      (adjustOffset 2 (prvSizeOfRemainingLength params.remainingLength)) params.packetIdentifier
  · intro i hi
    have hfits := topic_fits hcounted hroom
    unfold MQTTSubscribeParams.write
    simp only [write_fixed_header_eq _ hmax hroom]
    refine writeBytes_below _ ?_
    rw [prvWriteString, if_pos hfits]
    show i < adjustOffset 4 _ + 2 + params.topic.bytes.length
    rw [adjustOffset] at hi ⊢
    omega

theorem unsubscribe_topic_filter {buffer : MQTTBuffer} {params : MQTTUnsubscribeParams}
    (h : buffer.Carries (.unsubscribe params)) (hlength : params.topic.bytes.length + 2 < 2 ^ 16) :
    requestedTopicFilter buffer = params.topic.bytes := by
  obtain ⟨hmax, -, -, fresh, hdata, hroom⟩ := h
  have hcounted : 4 + params.topic.bytes.length ≤ params.remainingLength := by
    rw [MQTTUnsubscribeParams.remainingLength, MQTTString.encodedLength, Nat.mod_eq_of_lt hlength]
    omega
  refine requested_topic_filter (unsubscribe_writes_packet params) hmax hdata hroom hcounted
    ⟨?_, ?_⟩
  · exact writePacketIdentifier (writeFixedHeader (controlUNSUBSCRIBE ||| flagsUNSUBSCRIBE)
      params.remainingLength fresh).2
      (adjustOffset 2 (prvSizeOfRemainingLength params.remainingLength)) params.packetIdentifier
  · intro i _
    unfold MQTTUnsubscribeParams.write
    simp only [write_fixed_header_eq _ hmax hroom]

end TivaAws.Mqtt
