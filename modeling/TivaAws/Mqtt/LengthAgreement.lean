import TivaAws.Mqtt.Reading

/-!
# One "Remaining Length" for encoder, decoder and parser

`prvSizeOfRemainingLength`, `prvEncodeRemainingLength`, `prvDecodeRemainingLength` and the length
state of `MQTT_ParseReceivedData` are written independently. They agree: the encoder writes the
shortest field of a length, the decoder reads it back, and the parser accepts and rejects the
fields that the decoder accepts and rejects.
-/

namespace TivaAws.Mqtt

open Session ByteMemory

/-! ## The encoder and the decoder -/

/-- The bytes of a stream at the start of a memory. -/
def Holds (encoded : ByteMemory) (bytes : List UInt8) : Prop :=
  encoded.readBytes 0 bytes.length = bytes

theorem Holds.front {encoded : ByteMemory} {first rest : List UInt8}
    (h : Holds encoded (first ++ rest)) : Holds encoded first := by
  unfold Holds at h
  rw [List.length_append, readBytes_add] at h
  exact (List.append_inj h (length_readBytes encoded 0 first.length)).1

theorem Holds.continues {encoded : ByteMemory} {bytes : List UInt8} (h : Holds encoded bytes)
    (hcontinue : ∀ byte ∈ bytes, Varint.Continues byte) :
    ∀ i < bytes.length, Varint.Continues (encoded i) := by
  intro i hi
  refine hcontinue _ ?_
  rw [← h]
  exact (mem_readBytes _).mpr ⟨i, hi, by rw [Nat.zero_add]⟩

/-- What the encoder does with a length, in a buffer with room for its field. -/
structure LengthWritten (remainingLength : Nat) (memory : ByteMemory) (start : Nat)
    (written : Nat × ByteMemory) : Prop where
  count : written.1 = prvSizeOfRemainingLength remainingLength
  frame : ∀ i, i < start ∨ start + prvSizeOfRemainingLength remainingLength ≤ i →
    written.2 i = memory i
  decoded : ∀ encoded : ByteMemory,
    Holds encoded (written.2.readBytes start (prvSizeOfRemainingLength remainingLength)) →
    prvDecodeRemainingLength encoded =
      (prvSizeOfRemainingLength remainingLength, some remainingLength)

theorem length_written {remainingLength start lastByte : Nat} (memory : ByteMemory)
    (hmax : remainingLength ≤ maxRemainingLength)
    (hroom : start + prvSizeOfRemainingLength remainingLength ≤ lastByte + 1) :
    LengthWritten remainingLength memory start
      (prvEncodeRemainingLength memory remainingLength start lastByte) := by
  have hsize := length_encode_eq_size hmax
  rw [← hsize] at hroom
  rw [encode_remaining_length_eq memory hmax hroom]
  refine ⟨hsize, ?_, ?_⟩
  · intro i hi
    rw [← hsize] at hi
    rcases hi with hbelow | habove
    · exact writeBytes_below _ hbelow
    · exact writeBytes_above _ habove
  · intro encoded hholds
    rw [← hsize] at hholds ⊢
    have hwritten : (memory.writeBytes start (Varint.encode remainingLength)).readBytes start
        (Varint.encode remainingLength).length = Varint.encode remainingLength :=
      readBytes_writeBytes memory start _
    rw [hwritten] at hholds
    have hlength : (Varint.encode remainingLength).length ≤ remainingLengthMaxBytes := by
      rw [hsize]
      exact size_le_four remainingLength
    rw [decode_remaining_length_complete (Varint.encode_complete remainingLength) hlength hholds,
      Varint.value_encode]

/-- No field of the length is shorter. -/
theorem size_le_length {remainingLength : Nat} (hmax : remainingLength ≤ maxRemainingLength)
    {field : List UInt8} (hfield : Varint.Complete field)
    (hvalue : Varint.value field = remainingLength) :
    prvSizeOfRemainingLength remainingLength ≤ field.length := by
  rw [← length_encode_eq_size hmax, ← hvalue]
  exact Varint.length_encode_value_le hfield

theorem decode_loop_continues {encoded : ByteMemory} {rounds : Nat} (x decoded : Nat)
    (hcontinue : ∀ i, x ≤ i → i < x + rounds → Varint.Continues (encoded i)) :
    decodeRemainingLengthLoop encoded rounds x decoded = (0, none) := by
  induction rounds generalizing x decoded with
  | zero => rfl
  | succ rounds ih =>
      have hbyte : ¬ encoded x &&& 0x80 = 0 := hcontinue x (le_refl x) (by omega)
      rw [decodeRemainingLengthLoop, if_neg hbyte]
      exact ih (x + 1) _ fun i hi hlt => hcontinue i (by omega) (by omega)

/-- Four bytes that all continue are refused. -/
theorem decode_remaining_length_continues {encoded : ByteMemory}
    (hcontinue : ∀ i < remainingLengthMaxBytes, Varint.Continues (encoded i)) :
    prvDecodeRemainingLength encoded = (0, none) :=
  decode_loop_continues 0 0 fun i _ hlt => hcontinue i (by omega)

/-- The decoder reads the whole number at the start of the memory, or refuses four bytes that all
continue. -/
theorem decode_remaining_length_cases (encoded : ByteMemory) :
    (∃ field, Varint.Complete field ∧ field.length ≤ remainingLengthMaxBytes ∧
      Holds encoded field ∧
      prvDecodeRemainingLength encoded = (field.length, some (Varint.value field))) ∨
    (∀ i < remainingLengthMaxBytes, Varint.Continues (encoded i)) ∧
      prvDecodeRemainingLength encoded = (0, none) := by
  rcases Varint.begins_complete_or_continues (encoded.readBytes 0 remainingLengthMaxBytes) with
    ⟨field, rest, hsplit, hfield⟩ | hcontinue
  · have hcount := congrArg List.length hsplit
    rw [length_readBytes, List.length_append] at hcount
    have hholds : Holds encoded field := by
      have hwhole : Holds encoded (field ++ rest) := by
        rw [← hsplit, Holds, length_readBytes]
      exact hwhole.front
    have hlength : field.length ≤ remainingLengthMaxBytes := by omega
    exact Or.inl ⟨field, hfield, hlength, hholds,
      decode_remaining_length_complete hfield hlength hholds⟩
  · have hholds : Holds encoded (encoded.readBytes 0 remainingLengthMaxBytes) := by
      rw [Holds, length_readBytes]
    have hbytes := hholds.continues hcontinue
    rw [length_readBytes] at hbytes
    exact Or.inr ⟨hbytes, decode_remaining_length_continues hbytes⟩

/-- The last byte of a number at the start of a memory. -/
theorem Holds.not_continues {encoded : ByteMemory} {field : List UInt8}
    (h : Holds encoded field) (hfield : Varint.Complete field) :
    ∃ i < field.length, ¬ Varint.Continues (encoded i) := by
  by_contra hnone
  simp only [not_exists, not_and, not_not] at hnone
  refine hfield.not_all_continue fun byte hbyte => ?_
  rw [← h] at hbyte
  obtain ⟨i, hi, rfl⟩ := (mem_readBytes _).mp hbyte
  exact hnone (0 + i) (by omega)

/-- The decoder returns `0` exactly when all four bytes continue. -/
theorem decode_zero_iff (encoded : ByteMemory) :
    (prvDecodeRemainingLength encoded).1 = 0 ↔
      ∀ i < remainingLengthMaxBytes, Varint.Continues (encoded i) := by
  constructor
  · intro hzero
    rcases decode_remaining_length_cases encoded with ⟨field, hfield, -, -, hdecode⟩ | ⟨h, -⟩
    · rw [hdecode] at hzero
      exact absurd hzero hfield.length_pos.ne'
    · exact h
  · intro hcontinue
    rw [decode_remaining_length_continues hcontinue]

/-! ## The length state of the parser -/

variable {W : Type} {user : MQTTInitParams W} {s s' : Session W}

/-- The loop of `MQTT_ParseReceivedData` for as long as it stays in the state
`eMQTTRxNextBytePacketLength`: the iteration that ends the field and the bytes after it. -/
def receiveRemainingLength (user : MQTTInitParams W) :
    List UInt8 → Session W → Option (ParseIteration W × List UInt8)
  | [], _ => none
  | byte :: rest, s =>
      match parseIteration user (byte :: rest) s with
      | none => none
      | some iteration =>
          if iteration.exit = none ∧
              iteration.session.context.rxMessageState.rxNextByte = .packetLength then
            receiveRemainingLength user rest iteration.session
          else some (iteration, rest)

/-- The fixed header is complete and says that so many bytes follow: it has been handled, or the
message is received up to its total length. -/
def HeaderReceived (header : List UInt8) (length : Nat) (s : Session W) : Prop :=
  if length = 0 then
    s.context.rxMessageState.rxNextByte = .packetType ∧ .handled header ∈ s.outputs
  else
    s.context.rxMessageState.rxNextByte = .message ∧
      s.context.rxMessageState.totalMessageLength = length + header.length

/-- The parser takes the first bytes of the stream as the field of a length. -/
def LengthAccepted (user : MQTTInitParams W) (stream : List UInt8) (s : Session W)
    (field : List UInt8) (length : Nat) : Prop :=
  ∃ iteration rest, receiveRemainingLength user stream s = some (iteration, rest) ∧
    stream = field ++ rest ∧ iteration.exit = none ∧
    HeaderReceived (s.context.rxFixedHeaderBuffer 0 :: field) length iteration.session

/-- The parser takes the first bytes of the stream as a malformed field. -/
def LengthRejected (user : MQTTInitParams W) (stream : List UInt8) (s : Session W)
    (field : List UInt8) : Prop :=
  ∃ iteration rest, receiveRemainingLength user stream s = some (iteration, rest) ∧
    stream = field ++ rest ∧ iteration.exit = some .malformedPacketReceived

theorem HeaderReceived.unique {header : List UInt8} {length length' : Nat}
    (h : HeaderReceived header length s) (h' : HeaderReceived header length' s) :
    length = length' := by
  unfold HeaderReceived at h h'
  split_ifs at h h' with hzero hzero' hzero'
  · rw [hzero, hzero']
  · exact absurd (h.1.symm.trans h'.1) (by simp)
  · exact absurd (h.1.symm.trans h'.1) (by simp)
  · exact Nat.add_right_cancel (h.2.symm.trans h'.2)

theorem HeaderReceived.next_ne {header : List UInt8} {length : Nat}
    (h : HeaderReceived header length s) :
    s.context.rxMessageState.rxNextByte ≠ .packetLength := by
  intro hnext
  unfold HeaderReceived at h
  split_ifs at h
  · exact absurd (h.1.symm.trans hnext) (by simp)
  · exact absurd (h.1.symm.trans hnext) (by simp)

theorem header_only_received (user : MQTTInitParams W) (header : List UInt8) (s : Session W) :
    HeaderReceived header 0 (processPacket user ⟨header, []⟩ s) := by
  have hread : (s.context.completeHeader header).rxFixedHeaderBuffer.readBytes 0
      (s.context.completeHeader header).rxMessageReceivedLength = header :=
    readBytes_writeBytes s.context.rxFixedHeaderBuffer 0 header
  have hhandled : .handled header ∈ (prvProcessReceivedFixedHeaderOnlyMQTTPacket user
      (s.update (MQTTContext.completeHeader header))).outputs := by
    unfold prvProcessReceivedFixedHeaderOnlyMQTTPacket
    simp only [update_context, hread]
    have hemitted : .handled header ∈ (((s.update (MQTTContext.completeHeader header)).emit
        (.handled header)).emit (.access 0 1)).outputs :=
      List.mem_append_left _ (List.mem_append_right _ (List.mem_singleton_self _))
    split_ifs
    · exact (pingresp_within (le_refl 2) _).mem hemitted
    · exact (emits_reset_and_report (fun _ => @MQTTOutput.IsPlain.within _ 0) _ _).mem
        hemitted
  unfold HeaderReceived processPacket
  rw [if_pos rfl, if_pos rfl]
  exact ⟨rfl, hhandled⟩

theorem body_received (user : MQTTInitParams W) (controlByte : UInt8) {field : List UInt8}
    (hzero : Varint.value field ≠ 0) (s : Session W) :
    HeaderReceived (controlByte :: field) (Varint.value field)
      (receiveBody user (controlByte :: field) [] s) := by
  have hcontext := @get_free_buffer_context W user
    (Varint.value (controlByte :: field).tail + (controlByte :: field).length)
    (s.update (MQTTContext.completeHeader (controlByte :: field)))
  unfold HeaderReceived receiveBody
  rw [if_neg hzero]
  simp only
  split
  · simp only [update_context, MQTTContext.startStoring, hcontext]
    exact ⟨trivial, rfl⟩
  · simp only [update_context, MQTTContext.dropBytes, MQTTContext.startDropping, hcontext]
    exact ⟨trivial, rfl⟩

/-- After the control byte the length state has received a header of one byte. -/
theorem receive_header_single (hnext : s.context.rxMessageState.rxNextByte = .packetLength)
    (hlength : s.context.rxMessageReceivedLength = 1) :
    s.update (MQTTContext.receiveHeader [s.context.rxFixedHeaderBuffer 0]) = s := by
  have hbuffer : s.context.rxFixedHeaderBuffer.writeBytes 0 [s.context.rxFixedHeaderBuffer 0] =
      s.context.rxFixedHeaderBuffer := by
    funext i
    by_cases hi : i = 0
    · rw [hi, writeBytes_single]
    · exact writeBytes_above _ (Nat.one_le_iff_ne_zero.mpr hi)
  have hcontext : s.context.receiveHeader [s.context.rxFixedHeaderBuffer 0] = s.context := by
    rw [MQTTContext.receiveHeader, hbuffer, List.length_singleton, ← hlength, ← hnext]
  rw [Session.update, hcontext]

/-- The length state collects bytes that continue. -/
theorem receive_length_continues (hopen : s.context.connectionState ≠ .notConnected)
    {front : List UInt8} (hfront : ∀ byte ∈ front, Varint.Continues byte) {header : List UInt8}
    (hroom : header.length + front.length < fixedHeaderMaxSize) (rest : List UInt8) :
    receiveRemainingLength user (front ++ rest) (s.update (MQTTContext.receiveHeader header)) =
      receiveRemainingLength user rest
        (s.update (MQTTContext.receiveHeader (header ++ front))) := by
  induction front generalizing header with
  | nil => rw [List.nil_append, List.append_nil]
  | cons byte front ih =>
      rw [List.length_cons] at hroom
      obtain ⟨copies, asserts, hiteration⟩ := receive_continuing_byte user s
        (hfront byte List.mem_cons_self) (show header.length + 1 < fixedHeaderMaxSize by omega)
        (front ++ rest)
      have hparse := length_iteration user header hopen byte (front ++ rest)
      rw [List.cons_append, receiveRemainingLength, hparse, hiteration]
      simp only
      rw [if_pos ⟨trivial, rfl⟩, ih (fun other hother => hfront other
        (List.mem_cons_of_mem _ hother)) (by rw [List.length_append, List.length_singleton]; omega),
        List.append_assoc]
      rfl

section Field

variable (hopen : s.context.connectionState ≠ .notConnected) (controlByte : UInt8)

include hopen

/-- A field of at most four bytes ends the length state with its value. -/
theorem receive_length_complete {field : List UInt8} (hfield : Varint.Complete field)
    (hlength : field.length ≤ remainingLengthMaxBytes) (rest : List UInt8) :
    ∃ iteration, receiveRemainingLength user (field ++ rest)
        (s.update (MQTTContext.receiveHeader [controlByte])) = some (iteration, rest) ∧
      iteration.exit = none ∧
      HeaderReceived (controlByte :: field) (Varint.value field) iteration.session := by
  obtain ⟨front, last, hsplit, hfront, -⟩ := id hfield
  obtain ⟨iteration, hparse, hexit, hsession⟩ : ∃ iteration,
      parseIteration user (last :: rest)
        (s.update (MQTTContext.receiveHeader (controlByte :: front))) = some iteration ∧
      iteration.exit = none ∧ iteration.session =
        if Varint.value field = 0 then processPacket user ⟨controlByte :: field, []⟩ s
        else receiveBody user (controlByte :: field) [] s := by
    obtain ⟨copies, asserts, hiteration⟩ :=
      receive_last_byte hfield hlength user controlByte s hsplit rest
    rw [length_iteration user (controlByte :: front) hopen last rest, hiteration]
    exact ⟨_, rfl, rfl, rfl⟩
  have hreceived : HeaderReceived (controlByte :: field) (Varint.value field)
      iteration.session := by
    rw [hsession]
    split_ifs with hzero
    · rw [hzero]
      exact header_only_received user (controlByte :: field) s
    · exact body_received user controlByte hzero s
  have hroom : [controlByte].length + front.length < fixedHeaderMaxSize := by
    rw [hsplit, List.length_append, List.length_singleton] at hlength
    rw [List.length_singleton, fixedHeaderMaxSize]
    omega
  refine ⟨iteration, ?_, hexit, hreceived⟩
  rw [hsplit, List.append_assoc, receive_length_continues hopen hfront hroom,
    List.singleton_append, List.singleton_append, receiveRemainingLength, hparse]
  exact if_neg fun h => hreceived.next_ne h.2

/-- Four bytes that continue end the length state as malformed. -/
theorem receive_length_malformed {front : List UInt8}
    (hfront : ∀ byte ∈ front, Varint.Continues byte)
    (hlength : front.length = remainingLengthMaxBytes) (rest : List UInt8) :
    ∃ iteration, receiveRemainingLength user (front ++ rest)
        (s.update (MQTTContext.receiveHeader [controlByte])) = some (iteration, rest) ∧
      iteration.exit = some .malformedPacketReceived := by
  rcases List.eq_nil_or_concat front with rfl | ⟨first, last, rfl⟩
  · simp [remainingLengthMaxBytes] at hlength
  · rw [List.concat_eq_append] at hfront hlength ⊢
    rw [List.length_append, List.length_singleton] at hlength
    have hfirst : ∀ byte ∈ first, Varint.Continues byte :=
      fun byte hbyte => hfront byte (List.mem_append_left _ hbyte)
    have hroom : [controlByte].length + first.length < fixedHeaderMaxSize := by
      rw [List.length_singleton, fixedHeaderMaxSize]
      omega
    have hfull : (controlByte :: first).length + 1 = fixedHeaderMaxSize := by
      rw [List.length_cons, hlength, fixedHeaderMaxSize, Nat.add_comm]
    obtain ⟨iteration, hparse, hexit⟩ : ∃ iteration,
        parseIteration user (last :: rest)
          (s.update (MQTTContext.receiveHeader (controlByte :: first))) = some iteration ∧
        iteration.exit = some .malformedPacketReceived := by
      obtain ⟨copies, asserts, hiteration⟩ :=
        receive_malformed_byte user s (hfront last (by simp)) hfull rest
      rw [length_iteration user (controlByte :: first) hopen last rest, hiteration]
      exact ⟨_, rfl, rfl⟩
    refine ⟨iteration, ?_, hexit⟩
    rw [List.append_assoc, receive_length_continues hopen hfirst hroom, List.singleton_append,
      List.singleton_append, receiveRemainingLength, hparse]
    exact if_neg fun h => Option.some_ne_none _ (hexit.symm.trans h.1)

/-- A stream that ends before its field leaves the parser in the length state. -/
theorem receive_length_unfinished {front : List UInt8}
    (hfront : ∀ byte ∈ front, Varint.Continues byte)
    (hlength : front.length < remainingLengthMaxBytes) :
    receiveRemainingLength user front (s.update (MQTTContext.receiveHeader [controlByte])) =
      none := by
  have hroom : [controlByte].length + front.length < fixedHeaderMaxSize := by
    rw [List.length_singleton, fixedHeaderMaxSize]
    omega
  have hcontinues := @receive_length_continues _ user s hopen _ hfront _ hroom []
  rw [List.append_nil] at hcontinues
  rw [hcontinues]
  rfl

end Field

/-! ## Agreement -/

variable {stream : List UInt8} {encoded : ByteMemory}

/-- The parser accepts and rejects what the decoder accepts and rejects. -/
structure LengthParsed (user : MQTTInitParams W) (stream : List UInt8) (s : Session W)
    (encoded : ByteMemory) : Prop where
  accepted : ∀ field length, LengthAccepted user stream s field length ↔
    field <+: stream ∧ prvDecodeRemainingLength encoded = (field.length, some length)
  rejected : ∀ field, LengthRejected user stream s field ↔
    field <+: stream ∧ field.length = remainingLengthMaxBytes ∧
      (prvDecodeRemainingLength encoded).1 = 0

/-- Two prefixes of one length are the same. -/
theorem eq_of_prefixes {first second : List UInt8} (hfirst : first <+: stream)
    (hsecond : second <+: stream) (hlength : first.length = second.length) : first = second := by
  rw [List.prefix_iff_eq_take.mp hfirst, List.prefix_iff_eq_take.mp hsecond, hlength]

/-- The stream begins with a field of at most four bytes. -/
theorem parsed_complete (hholds : Holds encoded stream) {field rest : List UInt8}
    (hstream : stream = field ++ rest) (hfield : Varint.Complete field)
    (hlength : field.length ≤ remainingLengthMaxBytes) {iteration : ParseIteration W}
    (hreceive : receiveRemainingLength user stream s = some (iteration, rest))
    (hexit : iteration.exit = none)
    (hreceived : HeaderReceived (s.context.rxFixedHeaderBuffer 0 :: field) (Varint.value field)
      iteration.session) :
    LengthParsed user stream s encoded := by
  have hstarts : field <+: stream := ⟨rest, hstream.symm⟩
  have hdecode := decode_remaining_length_complete hfield hlength
    (Holds.front (hstream ▸ hholds))
  constructor
  · intro field' length
    constructor
    · rintro ⟨iteration', rest', hreceive', hstream', -, hreceived'⟩
      rw [hreceive] at hreceive'
      cases hreceive'
      obtain rfl : field' = field := List.append_cancel_right (hstream'.symm.trans hstream)
      rw [hdecode, hreceived.unique hreceived']
      exact ⟨hstarts, rfl⟩
    · rintro ⟨hstarts', hdecode'⟩
      rw [hdecode, Prod.mk.injEq, Option.some.injEq] at hdecode'
      obtain rfl : field = field' := eq_of_prefixes hstarts hstarts' hdecode'.1
      rw [← hdecode'.2]
      exact ⟨iteration, rest, hreceive, hstream, hexit, hreceived⟩
  · intro field'
    constructor
    · rintro ⟨iteration', rest', hreceive', -, hexit'⟩
      rw [hreceive] at hreceive'
      cases hreceive'
      exact absurd (hexit.symm.trans hexit') (by simp)
    · rintro ⟨-, -, hzero⟩
      rw [hdecode] at hzero
      exact absurd hzero hfield.length_pos.ne'

/-- The stream begins with four bytes that continue. -/
theorem parsed_malformed (hholds : Holds encoded stream) {front rest : List UInt8}
    (hstream : stream = front ++ rest) (hfront : ∀ byte ∈ front, Varint.Continues byte)
    (hlength : front.length = remainingLengthMaxBytes) {iteration : ParseIteration W}
    (hreceive : receiveRemainingLength user stream s = some (iteration, rest))
    (hexit : iteration.exit = some .malformedPacketReceived) :
    LengthParsed user stream s encoded := by
  have hstarts : front <+: stream := ⟨rest, hstream.symm⟩
  have hdecode : prvDecodeRemainingLength encoded = (0, none) := by
    refine decode_remaining_length_continues ?_
    rw [← hlength]
    exact (Holds.front (hstream ▸ hholds)).continues hfront
  constructor
  · intro field length
    constructor
    · rintro ⟨iteration', rest', hreceive', -, hexit', -⟩
      rw [hreceive] at hreceive'
      cases hreceive'
      exact absurd (hexit.symm.trans hexit') (by simp)
    · rintro ⟨-, hdecode'⟩
      exact absurd (hdecode.symm.trans hdecode') (by simp)
  · intro field
    constructor
    · rintro ⟨iteration', rest', hreceive', hstream', -⟩
      rw [hreceive] at hreceive'
      cases hreceive'
      obtain rfl : field = front := List.append_cancel_right (hstream'.symm.trans hstream)
      exact ⟨hstarts, hlength, by rw [hdecode]⟩
    · rintro ⟨hstarts', hlength', -⟩
      obtain rfl : front = field :=
        eq_of_prefixes hstarts hstarts' (hlength.trans hlength'.symm)
      exact ⟨iteration, rest, hreceive, hstream, hexit⟩

/-- The stream ends before its field does. -/
theorem parsed_unfinished (hholds : Holds encoded stream)
    (hfront : ∀ byte ∈ stream, Varint.Continues byte)
    (hlength : stream.length < remainingLengthMaxBytes)
    (hreceive : receiveRemainingLength user stream s = none) :
    LengthParsed user stream s encoded := by
  constructor
  · intro field length
    constructor
    · rintro ⟨iteration, rest, hreceive', -⟩
      exact absurd (hreceive.symm.trans hreceive') (by simp)
    · rintro ⟨hstarts, hdecode⟩
      rcases decode_remaining_length_cases encoded with
        ⟨field', hfield', -, hholds', hdecode'⟩ | ⟨-, hdecode'⟩
      · -- The decoder finds a byte that does not continue, but the stream has none.
        obtain ⟨i, hi, hends⟩ := hholds'.not_continues hfield'
        have hsame : field'.length = field.length :=
          congrArg Prod.fst (hdecode'.symm.trans hdecode)
        have hinside : i < stream.length := by
          have hle := hstarts.length_le
          omega
        exact absurd (hholds.continues hfront i hinside) hends
      · exact absurd (hdecode'.symm.trans hdecode) (by simp)
  · intro field
    constructor
    · rintro ⟨iteration, rest, hreceive', -⟩
      exact absurd (hreceive.symm.trans hreceive') (by simp)
    · rintro ⟨hstarts, hfull, -⟩
      have hle := hstarts.length_le
      omega

/-- In the length state, with only the control byte received, the parser agrees with the decoder
on every stream. -/
theorem length_parsed (user : MQTTInitParams W) (hholds : Holds encoded stream)
    (hopen : s.context.connectionState ≠ .notConnected)
    (hnext : s.context.rxMessageState.rxNextByte = .packetLength)
    (hlength : s.context.rxMessageReceivedLength = 1) : LengthParsed user stream s encoded := by
  have hsingle := receive_header_single hnext hlength
  have hwhole := List.take_append_drop remainingLengthMaxBytes stream
  rcases Varint.begins_complete_or_continues (stream.take remainingLengthMaxBytes) with
    ⟨field, rest, hsplit, hfield⟩ | hcontinue
  · have hfour : field.length ≤ remainingLengthMaxBytes := by
      have hcount := congrArg List.length hsplit
      rw [List.length_take, List.length_append] at hcount
      omega
    have hstream : stream = field ++ (rest ++ stream.drop remainingLengthMaxBytes) := by
      rw [← List.append_assoc, ← hsplit, hwhole]
    obtain ⟨iteration, hreceive, hexit, hreceived⟩ := @receive_length_complete _ user s hopen
      (s.context.rxFixedHeaderBuffer 0) field hfield hfour
        (rest ++ stream.drop remainingLengthMaxBytes)
    rw [hsingle, ← hstream] at hreceive
    exact parsed_complete hholds hstream hfield hfour hreceive hexit hreceived
  · rcases Nat.lt_or_ge stream.length remainingLengthMaxBytes with hshort | hlong
    · rw [List.take_of_length_le (Nat.le_of_lt hshort)] at hcontinue
      have hreceive := @receive_length_unfinished _ user s hopen
        (s.context.rxFixedHeaderBuffer 0) stream hcontinue hshort
      rw [hsingle] at hreceive
      exact parsed_unfinished hholds hcontinue hshort hreceive
    · have hfour : (stream.take remainingLengthMaxBytes).length = remainingLengthMaxBytes := by
        rw [List.length_take, Nat.min_eq_left hlong]
      obtain ⟨iteration, hreceive, hexit⟩ := @receive_length_malformed _ user s hopen
        (s.context.rxFixedHeaderBuffer 0) _ hcontinue hfour (stream.drop remainingLengthMaxBytes)
      rw [hsingle, hwhole] at hreceive
      exact parsed_malformed hholds hwhole.symm hcontinue hfour hreceive hexit

/-- Encoder, size table, decoder and parser agree on every length up to
`mqttMAX_REMAINING_LENGTH_LENGTH` and on every byte sequence. -/
theorem remaining_length_agrees (user : MQTTInitParams W) :
    (∀ remainingLength ≤ maxRemainingLength,
      (∀ memory start lastByte,
        start + prvSizeOfRemainingLength remainingLength ≤ lastByte + 1 →
        LengthWritten remainingLength memory start
          (prvEncodeRemainingLength memory remainingLength start lastByte)) ∧
      ∀ field, Varint.Complete field → Varint.value field = remainingLength →
        prvSizeOfRemainingLength remainingLength ≤ field.length) ∧
    (∀ encoded, (prvDecodeRemainingLength encoded).1 = 0 ↔
      ∀ i < remainingLengthMaxBytes, Varint.Continues (encoded i)) ∧
    ∀ stream encoded (s : Session W), Holds encoded stream →
      s.context.connectionState ≠ .notConnected →
      s.context.rxMessageState.rxNextByte = .packetLength →
      s.context.rxMessageReceivedLength = 1 → LengthParsed user stream s encoded := by
  refine ⟨fun remainingLength hmax => ⟨?_, ?_⟩, decode_zero_iff, ?_⟩
  · exact fun memory start lastByte hroom => length_written memory hmax hroom
  · exact fun field hfield hvalue => size_le_length hmax hfield hvalue
  · exact fun stream encoded s hholds hopen hnext hlength =>
      length_parsed user hholds hopen hnext hlength

/-- The length 321 is written in two bytes, and a field that never ends is refused. -/
theorem remaining_length_agrees_321 :
    LengthWritten 321 (fun _ => 0) 1 (prvEncodeRemainingLength (fun _ => 0) 321 1 9) ∧
    LengthRejected benchUser [0xFF, 0xFF, 0xFF, 0xFF]
      ⟨(replayed benchUser [(⟨1, 10, 100, false⟩, .connect benchConnect),
        (⟨2, 11, 100, false⟩, .parseReceivedData [controlCONNACK])] (mqttInit blankContext)).2,
        ⟨3, 12, 100, false⟩, []⟩ [0xFF, 0xFF, 0xFF, 0xFF] := by
  obtain ⟨hencode, -, hparse⟩ := remaining_length_agrees benchUser
  refine ⟨(hencode 321 (by decide)).1 _ 1 9 (by decide), ?_⟩
  exact ((hparse [0xFF, 0xFF, 0xFF, 0xFF] (fun _ => 0xFF) _ rfl (by decide +kernel)
    (by decide +kernel)
    (by decide +kernel)).rejected _).mpr ⟨List.prefix_refl _, rfl, by decide +kernel⟩

end TivaAws.Mqtt
