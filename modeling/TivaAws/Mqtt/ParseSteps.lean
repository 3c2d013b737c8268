import TivaAws.Mqtt.HandlerSteps

/-!
# Iterations of the parser

What one iteration of the loop of `MQTT_ParseReceivedData` does in each receive state, when the
receive invariant holds: it makes progress, stays within its arrays and is a run of transitions
(`parse_iteration_safe`). The loop therefore ends on every input (`parse_received_data_total`).
-/

namespace TivaAws.Mqtt

open Session Labelled ByteMemory

variable {W : Type} {user : MQTTInitParams W} {stream : List UInt8} {s : Session W}

/-- What an iteration on `data` must satisfy: it is a run of transitions that keeps the receive
invariant, it leaves the loop or consumes at least one of the bytes, its copies are in bounds and
its assertions hold. -/
structure ParseIteration.Safe (user : MQTTInitParams W) (stream : List UInt8)
    (s : Session W) (data : List UInt8) (iteration : ParseIteration W) : Prop where
  does : Does user (.parseReceivedData stream) s iteration.session
  invariant : RxInvariant iteration.session.context
  progress : iteration.exit = none → 1 ≤ iteration.consumed
  consumed_le : iteration.consumed ≤ data.length
  inBounds : ∀ copy ∈ iteration.copies, copy.offset + copy.count ≤ copy.size
  asserts : iteration.asserts = true

theorem sub32_of_le {minuend subtrahend : Nat} (h : subtrahend ≤ minuend)
    (hbound : minuend < 2 ^ 32) : sub32 minuend subtrahend = minuend - subtrahend := by
  unfold sub32
  omega

/-! ## The fixed header -/

/-- The bytes of the "Remaining Length" received so far. -/
def MQTTContext.lengthField (context : MQTTContext) : List UInt8 :=
  context.rxFixedHeaderBuffer.readBytes 1 (context.rxMessageReceivedLength - 1)

/-- The received "Remaining Length" is complete when its last byte does not continue. -/
theorem length_field_complete {context : MQTTContext} {length : Nat}
    (hlength : context.rxMessageReceivedLength = length + 2)
    (hcontinues : ∀ i, 1 ≤ i → i < length + 1 →
      Varint.Continues (context.rxFixedHeaderBuffer i))
    (hlast : ¬ Varint.Continues (context.rxFixedHeaderBuffer (length + 1))) :
    Varint.Complete context.lengthField := by
  have hsplit : context.lengthField = context.rxFixedHeaderBuffer.readBytes 1 length ++
      [context.rxFixedHeaderBuffer (length + 1)] := by
    rw [MQTTContext.lengthField, hlength, show length + 2 - 1 = length + 1 by omega,
      readBytes_succ, Nat.add_comm 1 length]
  refine ⟨_, _, hsplit, ?_, hlast⟩
  intro byte hbyte
  obtain ⟨i, hi, rfl⟩ := (mem_readBytes _).mp hbyte
  exact hcontinues (1 + i) (by omega) (by omega)

/-- The decoder reads the received "Remaining Length". -/
theorem decode_length_field {context : MQTTContext} (hfield : Varint.Complete context.lengthField)
    (hlength : context.rxMessageReceivedLength ≤ fixedHeaderMaxSize) :
    (prvDecodeRemainingLength fun i => context.rxFixedHeaderBuffer (1 + i)) =
      (context.rxMessageReceivedLength - 1, some (Varint.value context.lengthField)) := by
  have hcount : context.lengthField.length = context.rxMessageReceivedLength - 1 := by
    simp [MQTTContext.lengthField]
  rw [← hcount]
  refine decode_remaining_length_complete hfield ?_ ?_
  · rw [hcount]
    simp only [fixedHeaderMaxSize, remainingLengthMaxBytes] at hlength ⊢
    omega
  · rw [hcount]
    simp [MQTTContext.lengthField, readBytes]

/-- A "Remaining Length" of at most four bytes is at most `mqttMAX_REMAINING_LENGTH_LENGTH`. -/
theorem length_field_le {context : MQTTContext}
    (hlength : context.rxMessageReceivedLength ≤ fixedHeaderMaxSize) :
    Varint.value context.lengthField ≤ maxRemainingLength := by
  have hvalue := Varint.value_lt context.lengthField
  have hcount : context.lengthField.length ≤ 4 := by
    simp only [MQTTContext.lengthField, length_readBytes]
    simp only [fixedHeaderMaxSize, remainingLengthMaxBytes] at hlength
    omega
  have hpow : 128 ^ context.lengthField.length ≤ 128 ^ 4 := Nat.pow_le_pow_right (by omega) hcount
  unfold maxRemainingLength
  omega

/-- A fixed header that starts like PINGRESP is PINGRESP, whose length is a single byte. -/
theorem pingresp_exact {context : MQTTContext} (hfield : Varint.Complete context.lengthField)
    (h : context.rxFixedHeaderBuffer.readBytes 0 pingRespPacket.length = pingRespPacket) :
    context.rxFixedHeaderBuffer.readBytes 0 context.rxMessageReceivedLength = pingRespPacket := by
  have hpos := hfield.length_pos
  have hcount : context.lengthField.length = context.rxMessageReceivedLength - 1 := by
    simp [MQTTContext.lengthField]
  have hsecond : context.rxFixedHeaderBuffer.readBytes 1 1 = [0] := (List.cons.inj h).2
  have hstart : [(0 : UInt8)] <+: context.lengthField := by
    refine ⟨context.rxFixedHeaderBuffer.readBytes 2 (context.rxMessageReceivedLength - 2), ?_⟩
    rw [← hsecond, ← readBytes_add, MQTTContext.lengthField]
    congr 1
    omega
  have hone : [(0 : UInt8)] = context.lengthField :=
    Varint.complete_prefix_code.eq_of_prefix ⟨[], 0, rfl, by simp, by decide⟩ hfield hstart
  have hlength : context.rxMessageReceivedLength = pingRespPacket.length := by
    rw [← hone] at hcount
    simp only [List.length_singleton] at hcount
    show context.rxMessageReceivedLength = 2
    omega
  rw [hlength]
  exact h

/-- A change of receive fields alone is one transition. -/
theorem does_receive {change : MQTTContext → MQTTContext}
    (hstate : s.context.connectionState ≠ .notConnected)
    (hframe : change s.context = { s.context with
      rxMessageState := (change s.context).rxMessageState
      rxFixedHeaderBuffer := (change s.context).rxFixedHeaderBuffer
      rxMessageReceivedLength := (change s.context).rxMessageReceivedLength
      rxBuffer := (change s.context).rxBuffer })
    (hhandle : (change s.context).rxHandle = s.context.rxHandle) :
    Does user (.parseReceivedData stream) s (s.update change) :=
  ((Calls.refl s).update change).does rfl (.receive trivial hstate hframe hhandle)

/-- The body of the message is stored in a buffer that is large enough, or dropped. -/
theorem start_message_spec (user : MQTTInitParams W)
    (hstate : s.context.connectionState ≠ .notConnected) (hrx : s.context.rxBuffer = none)
    (htotal : s.context.rxMessageReceivedLength < s.context.rxMessageState.totalMessageLength)
    (hbound : s.context.rxMessageState.totalMessageLength ≤
      fixedHeaderMaxSize + maxRemainingLength) :
    Does user (.parseReceivedData stream) s (startMessage user s).1 ∧
      RxInvariant (startMessage user s).1.context ∧
      ∀ copy ∈ (startMessage user s).2, copy.offset + copy.count ≤ copy.size := by
  unfold startMessage
  simp only
  cases hbuffer : (prvGetFreeBuffer user s.context.rxMessageState.totalMessageLength s).1 with
  | none =>
      obtain ⟨hdoes, hcontext⟩ := get_free_buffer_none (.parseReceivedData stream) hbuffer
      simp only
      refine ⟨hdoes.trans (does_receive ?_ rfl ?_), ?_, by simp⟩
      · rw [hcontext]
        exact hstate
      · rw [hcontext]
        simp [MQTTContext.rxHandle, MQTTContext.startDropping, hrx]
      · rw [update_context, hcontext]
        refine ⟨⟨rfl, htotal⟩, ?_, fun _ => hbound⟩
        intro h
        simp [MQTTContext.startDropping] at h
  | some rxBuffer =>
      obtain ⟨hcalls, hcontext, hroom⟩ := get_free_buffer_some hbuffer
      have hcapacity : s.context.rxMessageState.totalMessageLength ≤ rxBuffer.effectiveLength := by
        refine hroom ?_
        simp only [fixedHeaderMaxSize, remainingLengthMaxBytes, maxRemainingLength] at hbound
        simp only [sizeofMQTTBufferMetadata]
        omega
      simp only
      refine ⟨(hcalls.update _).does rfl ?_, ?_, ?_⟩
      · rw [update_context, hcontext]
        exact .obtainRx (rxBuffer.copyHeader s.context) trivial hstate hrx rfl
      · rw [update_context, hcontext]
        refine ⟨⟨_, rfl, htotal, hcapacity⟩, ?_, fun _ => hbound⟩
        intro h
        simp [MQTTContext.startStoring] at h
      · intro copy hcopy
        rw [List.mem_singleton] at hcopy
        subst hcopy
        simp only [hcontext, Nat.zero_add]
        exact (Nat.le_of_lt htotal).trans hcapacity

/-- The fixed header is complete: its length is decoded, and the packet is handled, stored or
dropped. -/
theorem complete_fixed_header_spec (user : MQTTInitParams W)
    (hstate : s.context.connectionState ≠ .notConnected) (hrx : s.context.rxBuffer = none)
    (hlength : s.context.rxMessageReceivedLength ≤ fixedHeaderMaxSize)
    (hfield : Varint.Complete s.context.lengthField) :
    Does user (.parseReceivedData stream) s (completeFixedHeader user s).1 ∧
      RxInvariant (completeFixedHeader user s).1.context ∧
      ∀ copy ∈ (completeFixedHeader user s).2, copy.offset + copy.count ≤ copy.size := by
  have hdecoded : (s.update MQTTContext.decodeLength).context.rxMessageState.totalMessageLength =
      Varint.value s.context.lengthField + s.context.rxMessageReceivedLength := by
    simp only [update_context, MQTTContext.decodeLength, decode_length_field hfield hlength,
      Option.getD_some]
  have hdecode : Does user (.parseReceivedData stream) s (s.update MQTTContext.decodeLength) :=
    does_receive hstate rfl rfl
  have hvalue := length_field_le hlength
  unfold completeFixedHeader
  simp only
  split_ifs with hempty
  · refine ⟨hdecode.trans (does_fixed_header_only (pingresp_exact hfield) hstate hrx), ?_, by simp⟩
    exact AtBoundary.rx_invariant ⟨rfl, rfl, rfl⟩
  · have hmore : (s.update MQTTContext.decodeLength).context.rxMessageReceivedLength <
        (s.update MQTTContext.decodeLength).context.rxMessageState.totalMessageLength := by
      have hsame : (s.update MQTTContext.decodeLength).context.rxMessageReceivedLength =
        s.context.rxMessageReceivedLength := rfl
      rw [hdecoded, hsame] at hempty ⊢
      omega
    obtain ⟨hdoes, hinv, hcopies⟩ := start_message_spec user
      (s := s.update MQTTContext.decodeLength) hstate hrx hmore (by rw [hdecoded]; omega)
    exact ⟨hdecode.trans hdoes, hinv, hcopies⟩

/-! ## The four kinds of iterations -/

variable {data : List UInt8}

theorem receive_packet_type_safe (hdata : data ≠ [])
    (hinv : RxInvariant s.context) (hstate : s.context.connectionState ≠ .notConnected)
    (hnext : s.context.rxMessageState.rxNextByte = .packetType) :
    (receivePacketType data s).Safe user stream s data := by
  obtain ⟨hlength, hrx⟩ : s.context.rxMessageReceivedLength = 0 ∧ s.context.rxBuffer = none := by
    have hwell := hinv.wellFormed
    simpa only [RxWellFormed, hnext] using hwell
  refine ⟨does_receive hstate rfl ?_, ⟨?_, ?_, ?_⟩, fun _ => le_refl 1,
    List.length_pos_iff.mpr hdata, ?_, ?_⟩
  · rfl
  · simp only [receivePacketType, update_context, RxWellFormed, MQTTContext.copyPacketType,
      MQTTContext.copyHeaderByte, hlength, hrx, fixedHeaderMaxSize, remainingLengthMaxBytes]
    decide
  · intro _ i hi hlt
    simp only [receivePacketType, update_context, MQTTContext.copyPacketType,
      MQTTContext.copyHeaderByte, hlength] at hlt
    omega
  · intro h
    simp [receivePacketType, MQTTContext.copyPacketType] at h
  · simp [receivePacketType, hlength, fixedHeaderMaxSize]
  · simp [receivePacketType, hlength, hrx]

/-- The bytes below a copied header byte stay. -/
theorem copy_header_byte_below {context : MQTTContext} {i : Nat}
    (hi : i < context.rxMessageReceivedLength) :
    (context.copyHeaderByte data).rxFixedHeaderBuffer i = context.rxFixedHeaderBuffer i :=
  writeBytes_below _ hi

theorem receive_packet_length_safe (hdata : data ≠ [])
    (hinv : RxInvariant s.context) (hstate : s.context.connectionState ≠ .notConnected)
    (hnext : s.context.rxMessageState.rxNextByte = .packetLength) :
    (receivePacketLength user data s).Safe user stream s data := by
  obtain ⟨hpos, hmax, hrx⟩ : 1 ≤ s.context.rxMessageReceivedLength ∧
      s.context.rxMessageReceivedLength < fixedHeaderMaxSize ∧ s.context.rxBuffer = none := by
    have hwell := hinv.wellFormed
    simpa only [RxWellFormed, hnext] using hwell
  have hdataLength := List.length_pos_iff.mpr hdata
  have hcopy :
      Does user (.parseReceivedData stream) s (s.update (MQTTContext.copyHeaderByte data)) := by
    refine does_receive hstate rfl ?_
    rfl
  have hbelow : ∀ i, 1 ≤ i → i < s.context.rxMessageReceivedLength →
      Varint.Continues ((s.context.copyHeaderByte data).rxFixedHeaderBuffer i) := by
    intro i hi hlt
    rw [copy_header_byte_below hlt]
    exact hinv.headerContinues hnext i hi hlt
  have hcount : (s.context.copyHeaderByte data).rxMessageReceivedLength =
      s.context.rxMessageReceivedLength + 1 := rfl
  have hfits : ∀ copy ∈ [(⟨s.context.rxMessageReceivedLength, 1, fixedHeaderMaxSize⟩ : Copy)],
      copy.offset + copy.count ≤ copy.size := by
    intro copy hmem
    rw [List.mem_singleton] at hmem
    subst hmem
    exact hmax
  unfold receivePacketLength
  simp only [update_context, hcount, Nat.add_sub_cancel]
  split_ifs with hcontinue hlong
  · -- The fifth byte of the fixed header still continues.
    refine ⟨hcopy.trans (does_drop .malformedPacket rfl hstate), ?_, by simp, hdataLength, hfits,
      decide_eq_true hmax⟩
    obtain ⟨-, -, hcontext⟩ := reset_and_report_spec user .malformedPacket
      (s.update (MQTTContext.copyHeaderByte data))
    rw [hcontext]
    exact AtBoundary.rx_invariant ⟨rfl, rfl, rfl⟩
  · refine ⟨hcopy, ⟨?_, ?_, ?_⟩, fun _ => le_refl 1, hdataLength, hfits, decide_eq_true hmax⟩
    · simp only [RxWellFormed, update_context, MQTTContext.copyHeaderByte, hnext, hrx]
      exact ⟨by omega, by omega, trivial⟩
    · intro _ i hi hlt
      rw [update_context, hcount] at hlt
      rcases Nat.lt_succ_iff_lt_or_eq.mp hlt with hlt | rfl
      · exact hbelow i hi hlt
      · exact hcontinue
    · intro h
      rw [update_context] at h
      simp [MQTTContext.copyHeaderByte, hnext] at h
  · -- The length is complete.
    obtain ⟨length, hlength⟩ : ∃ length, s.context.rxMessageReceivedLength = length + 1 :=
      ⟨s.context.rxMessageReceivedLength - 1, by omega⟩
    have hfield : Varint.Complete (s.context.copyHeaderByte data).lengthField := by
      refine length_field_complete (by rw [hcount, hlength]) ?_ ?_
      · intro i hi hlt
        exact hbelow i hi (by omega)
      · rw [← hlength]
        exact hcontinue
    obtain ⟨hdoes, hinv', hcopies⟩ := complete_fixed_header_spec user
      (s := s.update (MQTTContext.copyHeaderByte data)) hstate hrx
      (by rw [update_context, hcount]; exact hmax) hfield
    refine ⟨hcopy.trans hdoes, hinv', fun _ => le_refl 1, hdataLength, ?_, decide_eq_true hmax⟩
    intro copy hmem
    rcases List.mem_cons.mp hmem with rfl | hmem
    · exact hmax
    · exact hcopies copy hmem

theorem store_message_safe {rxBuffer : MQTTBuffer} (hdata : data ≠ [])
    (hinv : RxInvariant s.context) (hstate : s.context.connectionState ≠ .notConnected)
    (hnext : s.context.rxMessageState.rxNextByte = .message)
    (haction : s.context.rxMessageState.rxMessageAction = .store)
    (hrx : s.context.rxBuffer = some rxBuffer) :
    (storeMessage user data rxBuffer s).Safe user stream s data := by
  obtain ⟨hlt, hle⟩ : rxBuffer.dataLength < s.context.rxMessageState.totalMessageLength ∧
      s.context.rxMessageState.totalMessageLength ≤ rxBuffer.effectiveLength := by
    have hwell := hinv.wellFormed
    simpa only [RxWellFormed, hnext, haction, hrx, Option.some.injEq, exists_eq_left'] using hwell
  have hbound := hinv.lengthBounded hnext
  have hexpected : sub32 s.context.rxMessageState.totalMessageLength rxBuffer.dataLength =
      s.context.rxMessageState.totalMessageLength - rxBuffer.dataLength := by
    refine sub32_of_le (Nat.le_of_lt hlt) (Nat.lt_of_le_of_lt hbound ?_)
    decide
  have hpos := List.length_pos_iff.mpr hdata
  have hset : ∀ received : MQTTBuffer, received.handle = rxBuffer.handle →
      Does user (.parseReceivedData stream) s (s.update (MQTTContext.setRxBuffer received)) := by
    intro received hhandle
    refine does_receive hstate rfl ?_
    simp [MQTTContext.rxHandle, MQTTContext.setRxBuffer, hrx, hhandle]
  unfold storeMessage
  simp only [hexpected]
  split_ifs with hpartial
  · refine ⟨hset _ rfl, ⟨?_, ?_, fun _ => hbound⟩, fun _ => hpos, le_refl _, ?_, rfl⟩
    · simp only [RxWellFormed, update_context, MQTTContext.setRxBuffer, hnext, haction,
        Option.some.injEq, exists_eq_left', MQTTBuffer.copyBytes, MQTTBuffer.effectiveLength]
      exact ⟨by omega, hle⟩
    · intro h
      simp [MQTTContext.setRxBuffer, hnext] at h
    · intro copy hcopy
      rw [List.mem_singleton] at hcopy
      subst hcopy
      simp only
      omega
  · refine ⟨(hset _ ?_).trans (does_packet _ hstate rfl),
      (at_boundary_reset_rx _).rx_invariant, ?_, ?_, ?_, rfl⟩
    · rfl
    · intro _
      simp only
      omega
    · simp only
      omega
    · intro copy hcopy
      rw [List.mem_singleton] at hcopy
      subst hcopy
      simp only
      omega

theorem drop_message_safe (hdata : data ≠ [])
    (hinv : RxInvariant s.context) (hstate : s.context.connectionState ≠ .notConnected)
    (hnext : s.context.rxMessageState.rxNextByte = .message)
    (haction : s.context.rxMessageState.rxMessageAction = .drop) :
    (dropMessage user data s).Safe user stream s data := by
  obtain ⟨hrx, hlt⟩ : s.context.rxBuffer = none ∧
      s.context.rxMessageReceivedLength < s.context.rxMessageState.totalMessageLength := by
    have hwell := hinv.wellFormed
    simpa only [RxWellFormed, hnext, haction] using hwell
  have hbound := hinv.lengthBounded hnext
  have hexpected : sub32 s.context.rxMessageState.totalMessageLength
      s.context.rxMessageReceivedLength =
      s.context.rxMessageState.totalMessageLength - s.context.rxMessageReceivedLength := by
    refine sub32_of_le (Nat.le_of_lt hlt) (Nat.lt_of_le_of_lt hbound ?_)
    decide
  have hpos := List.length_pos_iff.mpr hdata
  have hcount : ∀ count,
      Does user (.parseReceivedData stream) s (s.update (MQTTContext.countBytes count)) := by
    intro count
    refine does_receive hstate rfl ?_
    rfl
  unfold dropMessage
  simp only [hexpected]
  split_ifs with hpartial
  · refine ⟨hcount _, ⟨?_, ?_, fun _ => hbound⟩, fun _ => hpos, le_refl _, by simp, rfl⟩
    · simp only [RxWellFormed, update_context, MQTTContext.countBytes, hnext, haction]
      exact ⟨hrx, by omega⟩
    · intro h
      simp [MQTTContext.countBytes, hnext] at h
  · obtain ⟨hdoes, hcontext⟩ :=
      invoke_callback_notice user (.parseReceivedData stream) .packetDropped trivial (by simp)
      (s.update (MQTTContext.countBytes
        (s.context.rxMessageState.totalMessageLength - s.context.rxMessageReceivedLength)))
    refine ⟨((hcount _).trans hdoes).trans (does_reset_rx ?_ ?_),
      (at_boundary_reset_rx _).rx_invariant, ?_, ?_, by simp, rfl⟩
    · rw [hcontext]
      exact hstate
    · rw [hcontext]
      exact hrx
    · intro _
      simp only
      omega
    · simp only
      omega

/-! ## The loop -/

/-- Under the receive invariant the branch that should not be reached is not reached, and every
iteration is safe. -/
theorem parse_iteration_safe (user : MQTTInitParams W) (stream : List UInt8) (hdata : data ≠ [])
    (hinv : RxInvariant s.context) :
    ∃ iteration, parseIteration user data s = some iteration ∧
      iteration.Safe user stream s data := by
  unfold parseIteration
  by_cases hstate : s.context.connectionState = .notConnected
  · rw [if_pos hstate]
    exact ⟨_, rfl, .refl s, hinv, by simp, Nat.zero_le _, by simp, rfl⟩
  · rw [if_neg hstate]
    cases hnext : s.context.rxMessageState.rxNextByte with
    | packetType => exact ⟨_, rfl, receive_packet_type_safe hdata hinv hstate hnext⟩
    | packetLength => exact ⟨_, rfl, receive_packet_length_safe hdata hinv hstate hnext⟩
    | message =>
        cases haction : s.context.rxMessageState.rxMessageAction with
        | store =>
            obtain ⟨rxBuffer, hrx, -⟩ : ∃ rxBuffer, s.context.rxBuffer = some rxBuffer ∧ _ := by
              have hwell := hinv.wellFormed
              simp only [RxWellFormed, hnext, haction] at hwell
              exact hwell
            refine ⟨storeMessage user data rxBuffer s, ?_,
              store_message_safe hdata hinv hstate hnext haction hrx⟩
            simp only [hrx, Option.map_some]
        | drop => exact ⟨_, rfl, drop_message_safe hdata hinv hstate hnext haction⟩

/-- The loop ends with a return code, is a run of transitions and keeps the invariant. -/
theorem parse_loop_total (rounds : Nat) (data : List UInt8)
    (s : Session W) (hrounds : data.length ≤ rounds) (hinv : RxInvariant s.context) :
    ∃ returnCode s', parseLoop user rounds data s = some (returnCode, s') ∧
      Does user (.parseReceivedData stream) s s' ∧ RxInvariant s'.context := by
  induction rounds generalizing data s with
  | zero =>
      have hnil : data = [] := List.length_eq_zero_iff.mp (Nat.le_zero.mp hrounds)
      exact ⟨.success, s, by simp [parseLoop, hnil], .refl s, hinv⟩
  | succ rounds ih =>
      by_cases hdata : data = []
      · exact ⟨.success, s, by simp [parseLoop, hdata], .refl s, hinv⟩
      · obtain ⟨iteration, hiteration, hsafe⟩ := parse_iteration_safe user stream hdata
          hinv
        simp only [parseLoop, if_neg hdata, hiteration, Option.bind_eq_bind, Option.bind_some]
        cases hexit : iteration.exit with
        | some returnCode => exact ⟨returnCode, _, rfl, hsafe.does, hsafe.invariant⟩
        | none =>
            have hprogress := hsafe.progress hexit
            obtain ⟨returnCode, s', hloop, hdoes, hinv'⟩ := ih (data.drop iteration.consumed)
              iteration.session (by rw [List.length_drop]; omega) hsafe.invariant
            exact ⟨returnCode, s', hloop, hsafe.does.trans hdoes, hinv'⟩

/-- `MQTT_ParseReceivedData` returns on every input. -/
theorem parse_received_data_total (user : MQTTInitParams W) (stream : List UInt8)
    (data : List UInt8) (s : Session W)
    (hinv : RxInvariant s.context) :
    ∃ returnCode s', mqttParseReceivedData user data s = some (returnCode, s') ∧
      Does user (.parseReceivedData stream) s s' ∧ RxInvariant s'.context :=
  parse_loop_total data.length data s (le_refl _) hinv

end TivaAws.Mqtt
