import TivaAws.Mqtt.Chunking
import TivaAws.Mqtt.Replay

/-!
# Received data as a stream of packets

What `MQTT_ParseReceivedData` is for: the received bytes are split into whole packets, and the
packets are handled one after the other until the connection is closed. A packet with a body is
handled in a buffer of the pool, or reported as dropped when the pool has none. The reference below
splits the stream without looking at the context. The receive state machine agrees with it for
every way of cutting the stream into calls.
-/

namespace TivaAws.Mqtt

open Session ByteMemory

variable {W : Type}

/-! ## Splitting a stream -/

/-- A whole packet: its fixed header and its body. -/
structure ReceivedPacket where
  header : List UInt8
  body : List UInt8

/-- The bytes of a packet. -/
def ReceivedPacket.bytes (packet : ReceivedPacket) : List UInt8 := packet.header ++ packet.body

/-- What is left of a stream after its whole packets: a part of a fixed header, a fixed header
whose length field is too long, or a fixed header with a part of its body. -/
inductive StreamTail where
  | header (bytes : List UInt8)
  | malformed (header : List UInt8)
  | body (header bytes : List UInt8)

/-- The bytes of what is left of a stream. -/
def StreamTail.bytes : StreamTail → List UInt8
  | .header part => part
  | .malformed fixedHeader => fixedHeader
  | .body fixedHeader part => fixedHeader ++ part

/-- What is left of a stream holds no whole packet. -/
def StreamTail.Unfinished : StreamTail → Prop
  | .header [] => True
  | .header (_ :: front) =>
      (∀ byte ∈ front, Varint.Continues byte) ∧ front.length < remainingLengthMaxBytes
  | .malformed fixedHeader =>
      (∀ byte ∈ fixedHeader.tail, Varint.Continues byte) ∧
        fixedHeader.length = fixedHeaderMaxSize
  | .body fixedHeader part =>
      Varint.Complete fixedHeader.tail ∧ fixedHeader.length ≤ fixedHeaderMaxSize ∧
        part.length < Varint.value fixedHeader.tail

/-- Split off whole packets, at most `rounds` of them. -/
def splitPackets : Nat → List UInt8 → List ReceivedPacket × StreamTail
  | 0, stream => ([], .header stream)
  | _ + 1, [] => ([], .header [])
  | rounds + 1, controlByte :: bytes =>
      let front := bytes.takeWhile fun byte => decide (Varint.Continues byte)
      if remainingLengthMaxBytes ≤ front.length then
        ([], .malformed (controlByte :: front.take remainingLengthMaxBytes))
      else
        match bytes.drop front.length with
        | [] => ([], .header (controlByte :: front))
        | last :: after =>
            let field := front ++ [last]
            let length := Varint.value field
            if after.length < length then ([], .body (controlByte :: field) after)
            else
              let later := splitPackets rounds (after.drop length)
              (⟨controlByte :: field, after.take length⟩ :: later.1, later.2)

/-! ## Handling packets -/

/-- Put a fixed header, or a part of one, into the fixed header buffer. -/
def MQTTContext.receiveHeader (header : List UInt8) (context : MQTTContext) : MQTTContext :=
  { context with
    rxFixedHeaderBuffer := context.rxFixedHeaderBuffer.writeBytes 0 header
    rxMessageReceivedLength := header.length
    rxMessageState.rxNextByte := .packetLength }

/-- Put a whole fixed header into the fixed header buffer and record what it says. -/
def MQTTContext.completeHeader (header : List UInt8) (context : MQTTContext) : MQTTContext :=
  { context.receiveHeader header with
    rxMessageState :=
      { rxNextByte := .packetLength
        rxMessageAction := context.rxMessageState.rxMessageAction
        remainingLengthFieldBytes := header.length - 1
        totalMessageLength := Varint.value header.tail + header.length } }

/-- Fill a buffer with the received bytes of a packet. -/
def MQTTBuffer.fill (bytes : List UInt8) (buffer : MQTTBuffer) : MQTTBuffer :=
  { buffer with data := buffer.data.writeBytes 0 bytes, dataLength := bytes.length }

/-- Count received bytes of a message that is dropped. -/
def MQTTContext.dropBytes (count : Nat) (context : MQTTContext) : MQTTContext :=
  { context.startDropping with rxMessageReceivedLength := count }

variable (user : MQTTInitParams W)

/-- A fixed header has been received and so far the given bytes of its body: they are in a buffer of
the pool, or counted if there is none. -/
def receiveBody (header bytes : List UInt8) (s : Session W) : Session W :=
  let answer := prvGetFreeBuffer user (Varint.value header.tail + header.length)
    (s.update (MQTTContext.completeHeader header))
  match answer.1 with
  | some rxBuffer =>
      answer.2.update (MQTTContext.startStoring (rxBuffer.fill (header ++ bytes)))
  | none => answer.2.update (MQTTContext.dropBytes (header ++ bytes).length)

/-- Handle a whole packet. A packet with a body that got no buffer is reported as dropped. -/
def processPacket (packet : ReceivedPacket) (s : Session W) : Session W :=
  if packet.body = [] then
    (prvProcessReceivedFixedHeaderOnlyMQTTPacket user
      (s.update (MQTTContext.completeHeader packet.header))).update prvResetRxMessageState
  else
    let s := receiveBody user packet.header packet.body s
    match s.context.rxBuffer with
    | some rxBuffer =>
        (prvProcessReceivedMQTTPacket user rxBuffer s).update prvResetRxMessageState
    | none => (prvInvokeCallback user .packetDropped s).2.update prvResetRxMessageState

/-- Receive what is left of a stream. -/
def receiveTail (tail : StreamTail) (s : Session W) : Session W :=
  match tail with
  | .header [] => s
  | .header bytes => s.update (MQTTContext.receiveHeader bytes)
  | .malformed header =>
      resetAndReport user .malformedPacket (s.update (MQTTContext.receiveHeader header))
  | .body header bytes => receiveBody user header bytes s

/-- Do something unless the connection is closed. -/
def unlessClosed (action : Session W → Session W) (s : Session W) : Session W :=
  if s.context.connectionState = .notConnected then s else action s

/-- Handle packets in order, up to the first disconnect. -/
def handlePackets (packets : List ReceivedPacket) (s : Session W) : Session W :=
  packets.foldl (fun s packet => unlessClosed (processPacket user packet) s) s

/-- Split a stream into whole packets, handle them in order up to the first disconnect, and receive
what is left. -/
def receivePackets (stream : List UInt8) (s : Session W) : Session W :=
  let split := splitPackets stream.length stream
  unlessClosed (receiveTail user split.2) (handlePackets user split.1 s)

variable {user} {s s' : Session W} {header bytes : List UInt8} {packet : ReceivedPacket}

/-! ## The fixed header -/

/-- One more byte of the fixed header. -/
theorem copy_header_byte_receive (header rest : List UInt8) (byte : UInt8) (context : MQTTContext) :
    (context.receiveHeader header).copyHeaderByte (byte :: rest) =
      context.receiveHeader (header ++ [byte]) := by
  simp only [MQTTContext.copyHeaderByte, MQTTContext.receiveHeader, List.take_succ_cons,
    List.take_zero, List.length_append, List.length_singleton]
  have happend := writeBytes_append context.rxFixedHeaderBuffer 0 header [byte]
  rw [Nat.zero_add] at happend
  rw [happend]

/-- The first byte of a packet. -/
theorem parses_control_byte (hopen : s.context.connectionState ≠ .notConnected)
    (hboundary : AtBoundary s.context) (controlByte : UInt8) {rest : List UInt8}
    (h : Parses user rest (s.update (MQTTContext.receiveHeader [controlByte])) s') :
    Parses user (controlByte :: rest) s s' := by
  have hiteration : parseIteration user (controlByte :: rest) s =
      some (receivePacketType (controlByte :: rest) s) := by
    simp only [parseIteration, if_neg hopen, hboundary.1]
  have hsession : (receivePacketType (controlByte :: rest) s).session =
      s.update (MQTTContext.receiveHeader [controlByte]) := by
    simp only [receivePacketType, Session.update, MQTTContext.copyPacketType,
      MQTTContext.copyHeaderByte, MQTTContext.receiveHeader, hboundary.2.1,
      List.take_succ_cons, List.take_zero, List.length_singleton, Nat.zero_add]
  refine .next (List.cons_ne_nil _ _) hiteration rfl ?_
  rw [hsession]
  exact h

theorem length_iteration (user : MQTTInitParams W) (header : List UInt8)
    (hopen : s.context.connectionState ≠ .notConnected)
    (byte : UInt8) (rest : List UInt8) :
    parseIteration user (byte :: rest) (s.update (MQTTContext.receiveHeader header)) =
      some (receivePacketLength user (byte :: rest)
        (s.update (MQTTContext.receiveHeader header))) := by
  have hopen' : (s.update (MQTTContext.receiveHeader header)).context.connectionState ≠
      .notConnected := hopen
  rw [parseIteration, if_neg hopen']
  rfl

theorem update_receive_header_copy (byte : UInt8) (rest : List UInt8) :
    (s.update (MQTTContext.receiveHeader header)).update
        (MQTTContext.copyHeaderByte (byte :: rest)) =
      s.update (MQTTContext.receiveHeader (header ++ [byte])) := by
  simp only [Session.update, copy_header_byte_receive]

@[simp] theorem receive_header_length (context : MQTTContext) :
    (context.receiveHeader header).rxMessageReceivedLength = header.length := rfl

/-- The byte just received is in the fixed header buffer. -/
theorem receive_header_last (byte : UInt8) (context : MQTTContext) :
    (context.receiveHeader (header ++ [byte])).rxFixedHeaderBuffer header.length = byte := by
  have hlast : header.length < (header ++ [byte]).length := by simp
  have hinside : context.rxFixedHeaderBuffer.writeBytes 0 (header ++ [byte])
      (0 + header.length) = (header ++ [byte])[header.length] := writeBytes_inside _ hlast
  simpa [MQTTContext.receiveHeader] using hinside

/-- A byte of the "Remaining Length" that continues, with room for another one. -/
theorem receive_continuing_byte (user : MQTTInitParams W) (s : Session W) {byte : UInt8}
    (hbyte : Varint.Continues byte) (hroom : header.length + 1 < fixedHeaderMaxSize)
    (rest : List UInt8) :
    ∃ copies asserts,
      receivePacketLength user (byte :: rest) (s.update (MQTTContext.receiveHeader header)) =
        { consumed := 1, session := s.update (MQTTContext.receiveHeader (header ++ [byte])),
          exit := none, copies, asserts } := by
  unfold receivePacketLength
  simp only [update_receive_header_copy, update_context, receive_header_length,
    List.length_append, List.length_singleton, Nat.add_sub_cancel, receive_header_last]
  rw [if_pos (show byte &&& 0x80 ≠ 0 from hbyte), if_neg (Nat.not_le.mpr hroom)]
  exact ⟨_, _, rfl⟩

/-- Bytes of the "Remaining Length" that continue are collected. -/
theorem parses_length_bytes (hopen : s.context.connectionState ≠ .notConnected)
    {front rest : List UInt8} (hfront : ∀ byte ∈ front, Varint.Continues byte)
    (hroom : header.length + front.length < fixedHeaderMaxSize)
    (h : Parses user rest (s.update (MQTTContext.receiveHeader (header ++ front))) s') :
    Parses user (front ++ rest) (s.update (MQTTContext.receiveHeader header)) s' := by
  induction front generalizing header with
  | nil =>
      rw [List.append_nil] at h
      exact h
  | cons byte front ih =>
      rw [List.length_cons] at hroom
      have hbyte := hfront byte List.mem_cons_self
      have hnext : header.length + 1 < fixedHeaderMaxSize := by omega
      obtain ⟨copies, asserts, hiteration⟩ := receive_continuing_byte user s hbyte hnext
        (front ++ rest)
      refine .next (List.cons_ne_nil _ _)
        (length_iteration user header hopen byte (front ++ rest)) ?_ ?_
      · rw [hiteration]
      · rw [hiteration]
        refine ih (fun other hother => hfront other (List.mem_cons_of_mem _ hother)) ?_ ?_
        · rw [List.length_append, List.length_singleton]
          omega
        · rw [List.append_assoc]
          exact h

/-- The fifth byte of a fixed header may not continue. -/
theorem receive_malformed_byte (user : MQTTInitParams W) (s : Session W) {byte : UInt8}
    (hbyte : Varint.Continues byte) (hfull : header.length + 1 = fixedHeaderMaxSize)
    (rest : List UInt8) :
    ∃ copies asserts,
      receivePacketLength user (byte :: rest) (s.update (MQTTContext.receiveHeader header)) =
        { consumed := 1
          session := resetAndReport user .malformedPacket
            (s.update (MQTTContext.receiveHeader (header ++ [byte])))
          exit := some .malformedPacketReceived, copies, asserts } := by
  unfold receivePacketLength
  simp only [update_receive_header_copy, update_context, receive_header_length,
    List.length_append, List.length_singleton, Nat.add_sub_cancel, receive_header_last]
  rw [if_pos (show byte &&& 0x80 ≠ 0 from hbyte), if_pos (Nat.le_of_eq hfull.symm)]
  exact ⟨_, _, rfl⟩

theorem parses_malformed_byte (hopen : s.context.connectionState ≠ .notConnected) {byte : UInt8}
    (hbyte : Varint.Continues byte) (hfull : header.length + 1 = fixedHeaderMaxSize)
    (rest : List UInt8) :
    Parses user (byte :: rest) (s.update (MQTTContext.receiveHeader header))
      (resetAndReport user .malformedPacket
        (s.update (MQTTContext.receiveHeader (header ++ [byte])))) := by
  obtain ⟨copies, asserts, hiteration⟩ := receive_malformed_byte user s hbyte hfull rest
  have hparse := length_iteration user header hopen byte rest
  rw [hiteration] at hparse
  exact .exit (List.cons_ne_nil byte rest) hparse rfl

/-! ## The end of the fixed header -/

theorem length_field_receive (controlByte : UInt8) (field : List UInt8) (context : MQTTContext) :
    (context.receiveHeader (controlByte :: field)).lengthField = field := by
  have hread := readBytes_writeBytes context.rxFixedHeaderBuffer 0 (controlByte :: field)
  rw [List.length_cons, Nat.add_comm, readBytes_add] at hread
  exact (List.cons.inj hread).2

/-- Decoding the length completes the header. -/
theorem decode_receive_header {field : List UInt8} (hfield : Varint.Complete field)
    (hlength : field.length ≤ remainingLengthMaxBytes) (controlByte : UInt8)
    (context : MQTTContext) :
    (context.receiveHeader (controlByte :: field)).decodeLength =
      context.completeHeader (controlByte :: field) := by
  have hread := length_field_receive controlByte field context
  have hcount : (context.receiveHeader (controlByte :: field)).rxMessageReceivedLength ≤
      fixedHeaderMaxSize := by
    rw [receive_header_length, List.length_cons, fixedHeaderMaxSize]
    omega
  have hdecode := decode_length_field (hread.symm ▸ hfield) hcount
  rw [hread] at hdecode
  simp only [MQTTContext.decodeLength, hdecode, Option.getD_some, MQTTContext.completeHeader,
    receive_header_length, List.tail_cons]
  rfl

/-- The fixed header goes to the start of a new Rx buffer. -/
theorem copy_header_complete (header : List UInt8) (context : MQTTContext)
    (rxBuffer : MQTTBuffer) :
    rxBuffer.copyHeader (context.completeHeader header) = rxBuffer.fill header := by
  have hread : (context.completeHeader header).rxFixedHeaderBuffer.readBytes 0 header.length =
      header := readBytes_writeBytes context.rxFixedHeaderBuffer 0 header
  have hcount : (context.completeHeader header).rxMessageReceivedLength = header.length := rfl
  rw [MQTTBuffer.copyHeader, hcount, hread]
  rfl

theorem get_free_buffer_context (length : Nat) (s : Session W) :
    (prvGetFreeBuffer user length s).2.context = s.context := by
  unfold prvGetFreeBuffer
  simp only
  split <;> rfl

/-- Asking for a buffer starts the body. -/
theorem start_message_receive (header : List UInt8) (s : Session W) :
    (startMessage user (s.update (MQTTContext.completeHeader header))).1 =
      receiveBody user header [] s := by
  have htotal : (s.context.completeHeader header).rxMessageState.totalMessageLength =
      Varint.value header.tail + header.length := rfl
  have hcontext : (prvGetFreeBuffer user (Varint.value header.tail + header.length)
      (s.update (MQTTContext.completeHeader header))).2.context =
      s.context.completeHeader header := get_free_buffer_context _ _
  unfold startMessage receiveBody
  simp only [List.append_nil, update_context, htotal]
  generalize prvGetFreeBuffer user (Varint.value header.tail + header.length)
    (s.update (MQTTContext.completeHeader header)) = answer at hcontext ⊢
  obtain ⟨buffer, context, w, outputs⟩ := answer
  simp only at hcontext
  subst hcontext
  cases buffer with
  | none => rfl
  | some rxBuffer => simp only [Session.update, copy_header_complete]

section Field

variable {controlByte : UInt8} {field : List UInt8} (hfield : Varint.Complete field)
  (hlength : field.length ≤ remainingLengthMaxBytes)

include hfield hlength

/-- A complete fixed header without a body is handled, and one with a body starts it. -/
theorem complete_fixed_header_receive (user : MQTTInitParams W) (controlByte : UInt8)
    (s : Session W) :
    (completeFixedHeader user (s.update (MQTTContext.receiveHeader (controlByte :: field)))).1 =
      if Varint.value field = 0 then processPacket user ⟨controlByte :: field, []⟩ s
      else receiveBody user (controlByte :: field) [] s := by
  have hdecode : (s.update (MQTTContext.receiveHeader (controlByte :: field))).update
      MQTTContext.decodeLength = s.update (MQTTContext.completeHeader (controlByte :: field)) := by
    simp only [Session.update, decode_receive_header hfield hlength]
  have htotal : (s.update (MQTTContext.completeHeader
      (controlByte :: field))).context.rxMessageState.totalMessageLength =
      Varint.value field + (controlByte :: field).length := rfl
  have hcount : (s.update (MQTTContext.completeHeader
      (controlByte :: field))).context.rxMessageReceivedLength =
      (controlByte :: field).length := rfl
  unfold completeFixedHeader
  simp only [hdecode, htotal, hcount]
  by_cases hzero : Varint.value field = 0
  · rw [if_pos hzero, if_pos (by omega)]
    rfl
  · rw [if_neg hzero, if_neg (by omega)]
    exact start_message_receive _ s

/-- The last byte of the fixed header. -/
theorem receive_last_byte (user : MQTTInitParams W) (controlByte : UInt8) (s : Session W)
    {front : List UInt8} {last : UInt8} (hsplit : field = front ++ [last]) (rest : List UInt8) :
    ∃ copies asserts,
      receivePacketLength user (last :: rest)
          (s.update (MQTTContext.receiveHeader (controlByte :: front))) =
        { consumed := 1
          session :=
            if Varint.value field = 0 then processPacket user ⟨controlByte :: field, []⟩ s
            else receiveBody user (controlByte :: field) [] s
          exit := none, copies, asserts } := by
  have hlast : ¬ Varint.Continues last := by
    obtain ⟨front', last', heq, -, hlast⟩ := hfield
    rw [hsplit] at heq
    have hsame : last = last' := by simpa using (List.append_inj' heq rfl).2
    rw [hsame]
    exact hlast
  have hwhole := complete_fixed_header_receive hfield hlength user controlByte s
  unfold receivePacketLength
  simp only [update_receive_header_copy, update_context, receive_header_length,
    List.length_append, List.length_singleton, Nat.add_sub_cancel, receive_header_last]
  rw [if_neg (show ¬ last &&& 0x80 ≠ 0 from hlast), List.cons_append, ← hsplit, hwhole]
  exact ⟨_, _, rfl⟩

theorem parses_last_byte (hopen : s.context.connectionState ≠ .notConnected)
    {front : List UInt8} {last : UInt8} (hsplit : field = front ++ [last])
    {rest : List UInt8}
    (h : Parses user rest
      (if Varint.value field = 0 then processPacket user ⟨controlByte :: field, []⟩ s
        else receiveBody user (controlByte :: field) [] s) s') :
    Parses user (last :: rest) (s.update (MQTTContext.receiveHeader (controlByte :: front)))
      s' := by
  obtain ⟨copies, asserts, hiteration⟩ :=
    receive_last_byte hfield hlength user controlByte s hsplit rest
  refine .next (List.cons_ne_nil _ _)
    (length_iteration user (controlByte :: front) hopen last rest) ?_ ?_
  · rw [hiteration]
  · rw [hiteration]
    exact h

end Field

/-! ## The body -/

/-- The length of the body is what the message still expects after its fixed header. -/
theorem expected_body {field : List UInt8} (hlength : field.length ≤ remainingLengthMaxBytes)
    (controlByte : UInt8) :
    sub32 (Varint.value field + (controlByte :: field).length) (controlByte :: field).length =
      Varint.value field := by
  have hvalue := Varint.value_lt field
  have hpow : 128 ^ field.length ≤ 128 ^ 4 := Nat.pow_le_pow_right (by omega) hlength
  rw [remainingLengthMaxBytes] at hlength
  rw [sub32_of_le (by omega) (by simp only [List.length_cons]; omega)]
  omega

/-- Bytes of the body follow the fixed header in the buffer. -/
theorem fill_copy_bytes (header bytes : List UInt8) (rxBuffer : MQTTBuffer) :
    (rxBuffer.fill header).copyBytes bytes = rxBuffer.fill (header ++ bytes) := by
  have happend := writeBytes_append rxBuffer.data 0 header bytes
  rw [Nat.zero_add] at happend
  simp only [MQTTBuffer.copyBytes, MQTTBuffer.fill, happend, List.length_append]

theorem drop_iteration (user : MQTTInitParams W) (s : Session W)
    (hopen : s.context.connectionState ≠ .notConnected)
    (hnext : s.context.rxMessageState.rxNextByte = .message)
    (haction : s.context.rxMessageState.rxMessageAction = .drop) (data : List UInt8) :
    parseIteration user data s = some (dropMessage user data s) := by
  rw [parseIteration, if_neg hopen, hnext]
  simp only [haction]

theorem store_iteration (user : MQTTInitParams W) (s : Session W) {rxBuffer : MQTTBuffer}
    (hopen : s.context.connectionState ≠ .notConnected)
    (hnext : s.context.rxMessageState.rxNextByte = .message)
    (haction : s.context.rxMessageState.rxMessageAction = .store)
    (hbuffer : s.context.rxBuffer = some rxBuffer) (data : List UInt8) :
    parseIteration user data s = some (storeMessage user data rxBuffer s) := by
  rw [parseIteration, if_neg hopen, hnext]
  simp only [haction, hbuffer, Option.map_some]

/-- One iteration takes the whole body, or all bytes there are. -/
theorem body_iteration (user : MQTTInitParams W) (controlByte : UInt8)
    (hopen : s.context.connectionState ≠ .notConnected) {field : List UInt8}
    (hlength : field.length ≤ remainingLengthMaxBytes)
    (hbody : Varint.value field ≠ 0) {data : List UInt8} (hdata : data ≠ []) :
    ∃ copies,
      parseIteration user data (receiveBody user (controlByte :: field) [] s) = some
        (if data.length < Varint.value field then
          { consumed := data.length, session := receiveBody user (controlByte :: field) data s,
            exit := none, copies, asserts := true }
        else
          { consumed := Varint.value field
            session :=
              processPacket user ⟨controlByte :: field, data.take (Varint.value field)⟩ s
            exit := none, copies, asserts := true }) := by
  have hexpected := expected_body hlength controlByte
  have htake : data.take (Varint.value field) ≠ [] := by
    rw [Ne, List.take_eq_nil_iff, not_or]
    exact ⟨hbody, hdata⟩
  have hcontext : (prvGetFreeBuffer user (Varint.value field + (controlByte :: field).length)
      (s.update (MQTTContext.completeHeader (controlByte :: field)))).2.context =
      s.context.completeHeader (controlByte :: field) := get_free_buffer_context _ _
  have hopen' : (s.context.completeHeader (controlByte :: field)).connectionState ≠
      .notConnected := hopen
  unfold processPacket receiveBody
  simp only [if_neg htake, List.append_nil, List.tail_cons]
  generalize prvGetFreeBuffer user (Varint.value field + (controlByte :: field).length)
    (s.update (MQTTContext.completeHeader (controlByte :: field))) = answer at hcontext ⊢
  obtain ⟨buffer, context, w, outputs⟩ := answer
  simp only at hcontext
  subst hcontext
  -- Without a buffer the body is counted and dropped.
  cases buffer with
  | none =>
      have hiteration := drop_iteration user ⟨(s.context.completeHeader
        (controlByte :: field)).dropBytes (controlByte :: field).length, w, outputs⟩
        hopen' rfl rfl data
      have hcounted : ∀ context : MQTTContext, ∀ count,
          (context.dropBytes (controlByte :: field).length).countBytes count =
            context.dropBytes ((controlByte :: field).length + count) := fun _ _ => rfl
      have hexpects : sub32 ((s.context.completeHeader (controlByte :: field)).dropBytes
          (controlByte :: field).length).rxMessageState.totalMessageLength
          ((s.context.completeHeader (controlByte :: field)).dropBytes
            (controlByte :: field).length).rxMessageReceivedLength =
          Varint.value field := hexpected
      simp only [Session.update]
      rw [hiteration]
      unfold dropMessage
      simp only [Session.update, hexpects, hcounted, List.length_append]
      by_cases hpart : data.length < Varint.value field
      · simp only [if_pos hpart]
        exact ⟨_, rfl⟩
      · have hall : (data.take (Varint.value field)).length = Varint.value field := by
          rw [List.length_take, Nat.min_eq_left (Nat.le_of_not_lt hpart)]
        simp only [if_neg hpart, hall]
        exact ⟨_, rfl⟩
  | some rxBuffer =>
      have hiteration := store_iteration user ⟨(s.context.completeHeader
        (controlByte :: field)).startStoring (rxBuffer.fill (controlByte :: field)), w, outputs⟩
        hopen' rfl rfl rfl data
      -- The bytes are copied behind the header, and the packet is handled once it is whole.
      have hset : ∀ context : MQTTContext, ∀ buffer,
          (context.startStoring (rxBuffer.fill (controlByte :: field))).setRxBuffer buffer =
            context.startStoring buffer := fun _ _ => rfl
      have hexpects : sub32 ((s.context.completeHeader (controlByte :: field)).startStoring
          (rxBuffer.fill (controlByte :: field))).rxMessageState.totalMessageLength
          (rxBuffer.fill (controlByte :: field)).dataLength = Varint.value field := hexpected
      simp only [Session.update]
      rw [hiteration]
      unfold storeMessage
      simp only [Session.update, hexpects, fill_copy_bytes, hset]
      by_cases hpart : data.length < Varint.value field
      · simp only [if_pos hpart]
        exact ⟨_, rfl⟩
      · simp only [if_neg hpart]
        exact ⟨_, rfl⟩

/-! ## The stream -/

theorem unless_closed_of_open {action : Session W → Session W}
    (hopen : s.context.connectionState ≠ .notConnected) : unlessClosed action s = action s :=
  if_neg hopen

theorem unless_closed_of_closed {action : Session W → Session W}
    (hclosed : s.context.connectionState = .notConnected) : unlessClosed action s = s :=
  if_pos hclosed

theorem receive_nothing : unlessClosed (receiveTail user (.header [])) s = s := by
  unfold unlessClosed
  split <;> rfl

/-- Nothing is handled after a disconnect. -/
theorem handle_packets_closed (packets : List ReceivedPacket)
    (hclosed : s.context.connectionState = .notConnected) :
    handlePackets user packets s = s := by
  induction packets with
  | nil => rfl
  | cons packet rest ih =>
      rw [handlePackets, List.foldl_cons, unless_closed_of_closed hclosed]
      exact ih

/-- After a packet the next one is expected. -/
theorem at_boundary_process_packet (packet : ReceivedPacket) (s : Session W) :
    AtBoundary (processPacket user packet s).context := by
  unfold processPacket
  split
  · exact at_boundary_reset_rx _
  · simp only
    split <;> exact at_boundary_reset_rx _

/-- A fixed header up to the last byte of its length field. -/
theorem parses_front (hopen : s.context.connectionState ≠ .notConnected)
    (hboundary : AtBoundary s.context) (controlByte : UInt8) {front rest : List UInt8}
    (hfront : ∀ byte ∈ front, Varint.Continues byte)
    (hroom : front.length < remainingLengthMaxBytes)
    (h : Parses user rest (s.update (MQTTContext.receiveHeader (controlByte :: front))) s') :
    Parses user (controlByte :: (front ++ rest)) s s' := by
  refine parses_control_byte hopen hboundary controlByte ?_
  refine parses_length_bytes hopen hfront ?_ h
  rw [List.length_singleton, fixedHeaderMaxSize]
  omega

/-- A whole packet is handled. -/
theorem parses_packet (hopen : s.context.connectionState ≠ .notConnected)
    (hboundary : AtBoundary s.context) (controlByte : UInt8) {front : List UInt8} {last : UInt8}
    {body rest : List UInt8} (hfront : ∀ byte ∈ front, Varint.Continues byte)
    (hlast : ¬ Varint.Continues last) (hroom : front.length < remainingLengthMaxBytes)
    (hbody : body.length = Varint.value (front ++ [last]))
    (h : Parses user rest (processPacket user ⟨controlByte :: (front ++ [last]), body⟩ s) s') :
    Parses user (controlByte :: (front ++ last :: (body ++ rest))) s s' := by
  have hfield : Varint.Complete (front ++ [last]) := ⟨front, last, rfl, hfront, hlast⟩
  have hlength : (front ++ [last]).length ≤ remainingLengthMaxBytes := by
    rw [List.length_append, List.length_singleton]
    exact hroom
  refine parses_front hopen hboundary controlByte hfront hroom ?_
  refine parses_last_byte hfield hlength hopen rfl ?_
  by_cases hzero : Varint.value (front ++ [last]) = 0
  · obtain rfl : body = [] := List.length_eq_zero_iff.mp (hbody.trans hzero)
    rw [if_pos hzero]
    exact h
  · have hdata : body ++ rest ≠ [] := by
      rw [Ne, List.append_eq_nil_iff, ← List.length_eq_zero_iff, hbody]
      exact fun hnil => hzero hnil.1
    obtain ⟨copies, hiteration⟩ := body_iteration user controlByte hopen hlength hzero hdata
    rw [if_neg (by rw [List.length_append]; omega), ← hbody, List.take_left] at hiteration
    rw [if_neg hzero]
    refine .next hdata hiteration rfl ?_
    rw [List.drop_left]
    exact h

/-- A part of a packet is received. -/
theorem parses_part (user : MQTTInitParams W)
    (hopen : s.context.connectionState ≠ .notConnected)
    (hboundary : AtBoundary s.context) (controlByte : UInt8) {front : List UInt8} {last : UInt8}
    {part : List UInt8} (hfront : ∀ byte ∈ front, Varint.Continues byte)
    (hlast : ¬ Varint.Continues last) (hroom : front.length < remainingLengthMaxBytes)
    (hpart : part.length < Varint.value (front ++ [last])) :
    Parses user (controlByte :: (front ++ last :: part)) s
      (receiveBody user (controlByte :: (front ++ [last])) part s) := by
  have hfield : Varint.Complete (front ++ [last]) := ⟨front, last, rfl, hfront, hlast⟩
  have hlength : (front ++ [last]).length ≤ remainingLengthMaxBytes := by
    rw [List.length_append, List.length_singleton]
    exact hroom
  refine parses_front hopen hboundary controlByte hfront hroom ?_
  refine parses_last_byte hfield hlength hopen rfl ?_
  have hzero : Varint.value (front ++ [last]) ≠ 0 := by omega
  rw [if_neg hzero]
  by_cases hnil : part = []
  · rw [hnil]
    exact .done _
  · obtain ⟨copies, hiteration⟩ := body_iteration user controlByte hopen hlength hzero hnil
    rw [if_pos hpart] at hiteration
    refine .next hnil hiteration rfl ?_
    rw [List.drop_length]
    exact .done _

/-- A length field of more than four bytes ends the connection. -/
theorem parses_malformed (user : MQTTInitParams W)
    (hopen : s.context.connectionState ≠ .notConnected)
    (hboundary : AtBoundary s.context) (controlByte : UInt8) {front : List UInt8}
    (hfront : ∀ byte ∈ front, Varint.Continues byte)
    (hlength : front.length = remainingLengthMaxBytes) (rest : List UInt8) :
    Parses user (controlByte :: (front ++ rest)) s
      (resetAndReport user .malformedPacket
        (s.update (MQTTContext.receiveHeader (controlByte :: front)))) := by
  rcases List.eq_nil_or_concat front with rfl | ⟨first, last, rfl⟩
  · simp [remainingLengthMaxBytes] at hlength
  · rw [List.concat_eq_append] at hfront hlength ⊢
    rw [List.length_append, List.length_singleton] at hlength
    rw [List.append_assoc]
    have hfirst : ∀ byte ∈ first, Varint.Continues byte :=
      fun byte hbyte => hfront byte (List.mem_append_left _ hbyte)
    refine parses_front hopen hboundary controlByte hfirst (by omega) ?_
    refine parses_malformed_byte hopen (hfront last (by simp)) ?_ rest
    rw [List.length_cons, hlength, fixedHeaderMaxSize]
    omega

/-- The bytes of a length field that continue, and the byte that ends it. -/
theorem takeWhile_continues (bytes : List UInt8) :
    let front := bytes.takeWhile fun byte => decide (Varint.Continues byte)
    (∀ byte ∈ front, Varint.Continues byte) ∧ front ++ bytes.drop front.length = bytes ∧
      ∀ last after, bytes.drop front.length = last :: after → ¬ Varint.Continues last := by
  induction bytes with
  | nil => simp
  | cons byte bytes ih =>
      by_cases hbyte : Varint.Continues byte
      · simp only [List.takeWhile_cons, hbyte, decide_true, if_true, List.length_cons,
          List.drop_succ_cons, List.cons_append, List.mem_cons, forall_eq_or_imp, true_and]
        exact ⟨ih.1, congrArg _ ih.2.1, ih.2.2⟩
      · simp only [List.takeWhile_cons, hbyte, decide_false, Bool.false_eq_true, if_false]
        refine ⟨by simp, rfl, ?_⟩
        intro last after hcons
        obtain ⟨rfl, -⟩ := List.cons.inj hcons
        exact hbyte

/-- The parser handles the packets of a stream and receives what is left of it. -/
theorem parses_split (rounds : Nat) (stream : List UInt8) (s : Session W)
    (hrounds : stream.length ≤ rounds) (hboundary : AtBoundary s.context) :
    Parses user stream s
      (unlessClosed (receiveTail user (splitPackets rounds stream).2)
        (handlePackets user (splitPackets rounds stream).1 s)) := by
  induction rounds generalizing stream s with
  | zero =>
      obtain rfl : stream = [] := List.length_eq_zero_iff.mp (Nat.le_zero.mp hrounds)
      rw [splitPackets, handlePackets, List.foldl_nil, receive_nothing]
      exact .done s
  | succ rounds ih =>
      by_cases hclosed : s.context.connectionState = .notConnected
      · rw [handle_packets_closed _ hclosed, unless_closed_of_closed hclosed]
        obtain ⟨s', -, hparses, -⟩ := parse_received_data_parses user stream s
          hboundary.rx_invariant
        rw [hparses.closed hclosed] at hparses
        exact hparses
      cases stream with
      | nil =>
          rw [splitPackets, handlePackets, List.foldl_nil, receive_nothing]
          exact .done s
      | cons controlByte bytes =>
          obtain ⟨hfront, happend, hends⟩ := takeWhile_continues bytes
          simp only [splitPackets]
          generalize bytes.takeWhile (fun byte => decide (Varint.Continues byte)) = front
            at hfront happend hends ⊢
          split_ifs with hlong
          · -- The length field is too long.
            have htake : (front.take remainingLengthMaxBytes).length = remainingLengthMaxBytes := by
              rw [List.length_take, Nat.min_eq_left hlong]
            have hmalformed := parses_malformed user hclosed hboundary controlByte
              (fun byte hbyte => hfront byte (List.mem_of_mem_take hbyte)) htake
              (front.drop remainingLengthMaxBytes ++ bytes.drop front.length)
            rw [← List.append_assoc, List.take_append_drop, happend] at hmalformed
            rw [handlePackets, List.foldl_nil, unless_closed_of_open hclosed]
            exact hmalformed
          · cases hafter : bytes.drop front.length with
            | nil =>
                -- The fixed header is not complete.
                rw [hafter, List.append_nil] at happend
                simp only [handlePackets, List.foldl_nil, unless_closed_of_open hclosed,
                  receiveTail]
                rw [← happend, ← List.append_nil (front : List UInt8)]
                refine parses_front hclosed hboundary controlByte hfront
                  (Nat.lt_of_not_le hlong) ?_
                rw [List.append_nil]
                exact .done _
            | cons last after =>
                have hlast := hends last after hafter
                rw [hafter] at happend
                simp only
                split_ifs with hpart
                · -- The body is not complete.
                  have hreceived := parses_part user hclosed hboundary controlByte hfront
                    hlast (Nat.lt_of_not_le hlong) hpart
                  rw [happend] at hreceived
                  rw [handlePackets, List.foldl_nil, unless_closed_of_open hclosed]
                  exact hreceived
                · have hbody : (after.take (Varint.value (front ++ [last]))).length =
                      Varint.value (front ++ [last]) := by
                    rw [List.length_take, Nat.min_eq_left (Nat.le_of_not_lt hpart)]
                  have hlater := ih (after.drop (Varint.value (front ++ [last])))
                    (processPacket user ⟨controlByte :: (front ++ [last]),
                      after.take (Varint.value (front ++ [last]))⟩ s)
                    (by
                      have hcount := congrArg List.length happend
                      rw [List.length_append, List.length_cons] at hcount
                      rw [List.length_cons] at hrounds
                      rw [List.length_drop]
                      omega)
                    (at_boundary_process_packet _ s)
                  have hwhole := parses_packet hclosed hboundary controlByte hfront hlast
                    (Nat.lt_of_not_le hlong) hbody hlater
                  rw [List.take_append_drop, happend] at hwhole
                  rw [handlePackets, List.foldl_cons, unless_closed_of_open hclosed]
                  exact hwhole

/-- `MQTT_ParseReceivedData` on pieces of a stream, from a packet boundary on, is the reference on
the whole stream. -/
theorem parse_chunks_receive_packets (user : MQTTInitParams W) (chunks : List (List UInt8))
    (s : Session W) (hboundary : AtBoundary s.context) :
    parseChunks user chunks s = some (receivePackets user chunks.flatten s) := by
  obtain ⟨s', hparse, hparses, -⟩ := parse_chunks_parses user chunks s hboundary.rx_invariant
  rw [hparse, hparses.unique (parses_split _ chunks.flatten s (le_refl _) hboundary)]
  rfl

/-! ## What the reference splits off -/

/-- The reference splits off whole packets. What is left holds no whole packet, and only a length
field that is too long leaves bytes behind. -/
theorem split_packets_spec (rounds : Nat) (stream : List UInt8)
    (hrounds : stream.length ≤ rounds) :
    (∀ packet ∈ (splitPackets rounds stream).1, Framed packet.bytes) ∧
      (splitPackets rounds stream).2.Unfinished ∧
      ∃ rest, stream = (splitPackets rounds stream).1.flatMap ReceivedPacket.bytes ++
          ((splitPackets rounds stream).2.bytes ++ rest) ∧
        (rest = [] ∨ ∃ header, (splitPackets rounds stream).2 = .malformed header) := by
  -- On the rounds, each of which splits off one packet.
  induction rounds generalizing stream with
  | zero =>
      obtain rfl : stream = [] := List.length_eq_zero_iff.mp (Nat.le_zero.mp hrounds)
      exact ⟨by simp [splitPackets], trivial, [], rfl, Or.inl rfl⟩
  | succ rounds ih =>
      cases stream with
      | nil => exact ⟨by simp [splitPackets], trivial, [], rfl, Or.inl rfl⟩
      | cons controlByte bytes =>
          obtain ⟨hfront, happend, hends⟩ := takeWhile_continues bytes
          simp only [splitPackets]
          generalize bytes.takeWhile (fun byte => decide (Varint.Continues byte)) = front
            at hfront happend hends ⊢
          split_ifs with hlong
          · have htake : (front.take remainingLengthMaxBytes).length =
                remainingLengthMaxBytes := by
              rw [List.length_take, Nat.min_eq_left hlong]
            refine ⟨by simp, ⟨?_, ?_⟩,
              front.drop remainingLengthMaxBytes ++ bytes.drop front.length, ?_, Or.inr ⟨_, rfl⟩⟩
            · exact fun byte hbyte => hfront byte (List.mem_of_mem_take hbyte)
            · rw [List.length_cons, htake, fixedHeaderMaxSize, Nat.add_comm]
            · simp only [List.flatMap_nil, List.nil_append, StreamTail.bytes, List.cons_append]
              rw [← List.append_assoc, List.take_append_drop, happend]
          · cases hafter : bytes.drop front.length with
            | nil =>
                rw [hafter, List.append_nil] at happend
                refine ⟨by simp, ⟨hfront, Nat.lt_of_not_le hlong⟩, [], ?_, Or.inl rfl⟩
                simp only [List.flatMap_nil, List.nil_append, StreamTail.bytes, List.append_nil]
                rw [happend]
            | cons last after =>
                have hlast := hends last after hafter
                rw [hafter] at happend
                have hfield : Varint.Complete (front ++ [last]) :=
                  ⟨front, last, rfl, hfront, hlast⟩
                have hlength : (front ++ [last]).length ≤ remainingLengthMaxBytes := by
                  rw [List.length_append, List.length_singleton]
                  omega
                simp only
                split_ifs with hpart
                · refine ⟨by simp, ⟨hfield, ?_, hpart⟩, [], ?_, Or.inl rfl⟩
                  · rw [List.length_cons, fixedHeaderMaxSize]
                    omega
                  · simp only [List.flatMap_nil, List.nil_append, StreamTail.bytes,
                      List.append_nil, List.cons_append, List.append_assoc]
                    rw [happend]
                · have hbody : (after.take (Varint.value (front ++ [last]))).length =
                      Varint.value (front ++ [last]) := by
                    rw [List.length_take, Nat.min_eq_left (Nat.le_of_not_lt hpart)]
                  obtain ⟨hframed, hunfinished, rest, hrest, hmalformed⟩ :=
                    ih (after.drop (Varint.value (front ++ [last])))
                      (by
                        have hcount := congrArg List.length happend
                        rw [List.length_append, List.length_cons] at hcount
                        rw [List.length_cons] at hrounds
                        rw [List.length_drop]
                        omega)
                  refine ⟨?_, hunfinished, rest, ?_, hmalformed⟩
                  · intro packet hpacket
                    rcases List.mem_cons.mp hpacket with rfl | hpacket
                    · exact ⟨controlByte, front ++ [last], _, rfl, hfield, hlength, hbody.symm⟩
                    · exact hframed packet hpacket
                  · rw [List.flatMap_cons, List.append_assoc, ← hrest]
                    simp only [ReceivedPacket.bytes, List.cons_append, List.append_assoc,
                      List.nil_append, List.take_append_drop]
                    rw [happend]

/-! ## Streams of a connection -/

/-- The context that CONNECT leaves is at a packet boundary, where the stream of its connection
begins. -/
theorem connection_begins_at_boundary {memory c c' : MQTTContext}
    {history : List (Op × List MQTTOutput)} {params : MQTTConnectParams}
    {outputs : List MQTTOutput} (hrun : Run user memory history c)
    (hidle : c.connectionState = .notConnected)
    (h : Executes user c [(.connect params, outputs)] c') : AtBoundary c' := by
  obtain ⟨op, labels, hentry, hsteps⟩ := h.steps hrun.base_invariant
  obtain ⟨rfl, rfl⟩ := Prod.mk.inj (List.cons.inj hentry).1
  exact hsteps.preserves AtBoundary (fun hinv htransition => htransition.at_boundary id hinv)
    (hrun.base_invariant.released hidle).boundary

/-- In every run it does not matter how a stream of received bytes is cut into calls of
`MQTT_ParseReceivedData`. From a packet boundary on, which is where the stream of a connection
begins, the calls do what the reference does with the whole stream: the outputs, the world and
the context are the same. -/
theorem received_stream_handled (user : MQTTInitParams W) {memory c : MQTTContext}
    {history : List (Op × List MQTTOutput)} (hrun : Run user memory history c) (w : W)
    (chunks : List (List UInt8)) :
    (∃ s', parseChunks user chunks ⟨c, w, []⟩ = some s' ∧
      parseChunks user [chunks.flatten] ⟨c, w, []⟩ = some s') ∧
    (AtBoundary c → parseChunks user chunks ⟨c, w, []⟩ =
      some (receivePackets user chunks.flatten ⟨c, w, []⟩)) := by
  refine ⟨?_, parse_chunks_receive_packets user chunks ⟨c, w, []⟩⟩
  obtain ⟨s', hparse, hparses, -⟩ := parse_chunks_parses user chunks ⟨c, w, []⟩
    hrun.base_invariant.rx
  obtain ⟨s'', hwhole, hparses', -⟩ := parse_chunks_parses user [chunks.flatten] ⟨c, w, []⟩
    hrun.base_invariant.rx
  rw [List.flatten_singleton] at hparses'
  obtain rfl := hparses'.unique hparses
  exact ⟨s'', hparse, hwhole⟩

/-- A connecting client. -/
def connecting : List (Bench × Op) := [(⟨1, 10, 100, false⟩, .connect benchConnect)]

theorem received_stream_connack :
    ∃ history c, Run benchUser blankContext history c ∧
      c.connectionState = .connectionInProgress ∧
      parseChunks benchUser [[controlCONNACK], [2, 0], [0]] ⟨c, ⟨2, 11, 100, false⟩, []⟩ =
        some (receivePackets benchUser acceptingConnACK ⟨c, ⟨2, 11, 100, false⟩, []⟩) := by
  have hrun : Run benchUser blankContext _ _ :=
    run_of_replayed (show (replay benchUser connecting _).isSome from rfl)
  refine ⟨_, _, hrun, rfl, ?_⟩
  exact (received_stream_handled benchUser hrun ⟨2, 11, 100, false⟩
    [[controlCONNACK], [2, 0], [0]]).2 ⟨rfl, rfl, rfl⟩

end TivaAws.Mqtt
