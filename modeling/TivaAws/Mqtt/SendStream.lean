import TivaAws.Mqtt.Replay

/-!
# The stream of sent bytes

The bytes that the send function has accepted since CONNECT was sent. On an open connection they
are a sequence of whole packets as long as no send other than those of `MQTT_Connect` and
`MQTT_Disconnect` is accepted in part. The library does not drop the connection when a send is, so
after a partial send the next packet starts inside the last one.
-/

namespace TivaAws.Mqtt

open Labelled PrefixCode

variable {W : Type} {user : MQTTInitParams W} {op : Op} {c c' : MQTTContext}
  {labels : List MQTTOutput} {stream : List UInt8}

/-! ## Sends -/

/-- The data handed to the send function and how many of its bytes were accepted. -/
def MQTTOutput.send : MQTTOutput → Option (List UInt8 × Nat)
  | .sent data count => some (data, count)
  | _ => none

/-- The sends among outputs. -/
def sends (outputs : List MQTTOutput) : List (List UInt8 × Nat) :=
  outputs.filterMap MQTTOutput.send

@[simp] theorem sends_append (first second : List MQTTOutput) :
    sends (first ++ second) = sends first ++ sends second :=
  List.filterMap_append

@[simp] theorem sends_obtained (handle : MQTTBufferHandle) (rest : List MQTTOutput) :
    sends (.obtained handle :: rest) = sends rest := rfl

@[simp] theorem sends_returned (handle : MQTTBufferHandle) (rest : List MQTTOutput) :
    sends (.returned handle :: rest) = sends rest := rfl

@[simp] theorem sends_nil : sends [] = [] := rfl

@[simp] theorem sends_access (offset count : Nat) (rest : List MQTTOutput) :
    sends (.access offset count :: rest) = sends rest := rfl

@[simp] theorem sends_handled (packet : List UInt8) (rest : List MQTTOutput) :
    sends (.handled packet :: rest) = sends rest := rfl

theorem sends_quiet {output : MQTTOutput} (h : output.IsQuiet) : sends [output] = [] := by
  cases output with
  | sent => exact absurd h id
  | _ => rfl

@[simp] theorem sends_reported (event : MQTTEvent) (result : Bool) :
    sends (user.reported event result) = [] := by
  unfold MQTTInitParams.reported
  split_ifs
  · rfl
  · rfl

@[simp] theorem sends_clock (tickCount : UInt64) : sends (user.clock tickCount) = [] := by
  unfold MQTTInitParams.clock
  split_ifs
  · rfl
  · rfl

@[simp] theorem sends_transmitted (data : List UInt8) (count : Nat) (tickCount : UInt64) :
    sends (user.transmitted data count tickCount) = [(data, count)] := by
  unfold MQTTInitParams.transmitted
  show (data, count) :: sends (if _ then _ else _) = _
  split_ifs
  · rw [sends_clock]
  · rfl

@[simp] theorem sends_returns (context : MQTTContext) : sends context.returns = [] := by
  have hnone : ∀ handle, (MQTTOutput.returned handle).send = none := fun _ => rfl
  simp [sends, MQTTContext.returns, List.filterMap_map, hnone]

/-! ## The stream -/

/-- The stream after a send: CONNECT starts a new one. -/
def extendStream (op : Op) (stream : List UInt8) (send : List UInt8 × Nat) : List UInt8 :=
  (if op.Connects then [] else stream) ++ send.1.take send.2

/-- The bytes accepted up to the end of an operation. -/
def acceptedBytes (stream : List UInt8) (entry : Op × List MQTTOutput) : List UInt8 :=
  (sends entry.2).foldl (extendStream entry.1) stream

/-- All of the data was accepted, or nothing. -/
def AllOrNothing (send : List UInt8 × Nat) : Prop := send.2 = 0 ∨ send.1.length ≤ send.2

instance (send : List UInt8 × Nat) : Decidable (AllOrNothing send) :=
  inferInstanceAs (Decidable (_ ∨ _))

/-- No send of the operation is accepted in part, unless it is `MQTT_Connect` or
`MQTT_Disconnect`. -/
def SendsWhole (entry : Op × List MQTTOutput) : Prop :=
  entry.1.Connects ∨ entry.1 = .disconnect ∨ ∀ send ∈ sends entry.2, AllOrNothing send

instance (entry : Op × List MQTTOutput) : Decidable (SendsWhole entry) :=
  inferInstanceAs (Decidable (_ ∨ _ ∨ _))

/-- On an open connection the stream is a sequence of whole packets. -/
def StreamWhole (context : MQTTContext) (stream : List UInt8) : Prop :=
  context.connectionState ≠ .notConnected → Concatenation Framed stream

theorem StreamWhole.congr (h : StreamWhole c stream)
    (hstate : c'.connectionState = c.connectionState) : StreamWhole c' stream := by
  unfold StreamWhole
  rw [hstate]
  exact h

theorem StreamWhole.of_not_connected (h : c.connectionState = .notConnected) :
    StreamWhole c stream :=
  fun hopen => absurd h hopen

/-- A whole packet that is accepted whole or not at all keeps the stream whole. -/
theorem extend_whole {data : List UInt8} {count : Nat} (h : Concatenation Framed stream)
    (hframed : Framed data) (hwhole : AllOrNothing (data, count)) :
    Concatenation Framed (stream ++ data.take count) := by
  rcases hwhole with hnone | hall
  · have hzero : count = 0 := hnone
    rw [hzero, List.take_zero, List.append_nil]
    exact h
  · rw [List.take_of_length_le hall]
    exact h.append_word hframed

/-- Every transition without a partial send keeps the stream whole. -/
theorem Transition.stream_whole (h : Transition user op c labels c')
    (hwhole : SendsWhole (op, labels)) (hinv : StreamWhole c stream) :
    StreamWhole c' (acceptedBytes stream (op, labels)) := by
  have hkept : sends labels = [] → acceptedBytes stream (op, labels) = stream := by
    intro hnone
    rw [acceptedBytes, hnone]
    rfl
  have hother : ¬ op.Connects → op ≠ .disconnect → ∀ send ∈ sends labels, AllOrNothing send :=
    fun hconnects hdisconnect => (hwhole.resolve_left hconnects).resolve_left hdisconnect
  cases h with
  | quiet hquiet =>
      rw [hkept (sends_quiet hquiet)]
      exact hinv
  | configure params hop hstate => exact .of_not_connected hstate
  -- A CONNECT packet begins the stream of its connection.
  | connect buffer t t' hconnects hstate hcarries =>
      intro _
      have hstream : acceptedBytes stream (op, .obtained buffer.handle :: (user.clock t ++
          user.transmitted buffer.packet buffer.packet.length t')) = buffer.packet := by
        simp [acceptedBytes, extendStream, hconnects]
      rw [hstream]
      exact concatenation_word hcarries.framed
  | request buffer t t' hawaits hstate hcarries =>
      intro hopen
      have hconnects : ¬ op.Connects := hawaits.not_connects
      have hstream : acceptedBytes stream (op, .obtained buffer.handle :: (user.clock t ++
          user.transmitted buffer.packet buffer.packet.length t')) = stream ++ buffer.packet := by
        simp [acceptedBytes, extendStream, hconnects]
      rw [hstream]
      exact (hinv hopen).append_word hcarries.framed
  -- A packet that is sent and not kept. Without a connection there is no stream, and on an open one
  -- the transport has taken all of it or nothing.
  | transient buffer count t t' hstate hawaits hcarries =>
      rcases hstate with ⟨-, hidle⟩ | ⟨hconnects, hconnected⟩
      · refine .of_not_connected ?_
        split_ifs
        · exact hidle
        · exact hidle
      · intro _
        have hopen : c.connectionState ≠ .notConnected := by
          rw [hconnected]
          decide
        have hdisconnect : op ≠ .disconnect := by
          rintro rfl
          exact hcarries
        have hstream : acceptedBytes stream (op, .obtained buffer.handle :: (user.clock t ++
            (user.transmitted buffer.packet count t' ++ [.returned buffer.handle]))) =
            stream ++ buffer.packet.take count := by
          simp [acceptedBytes, extendStream, hconnects]
        rw [hstream]
        exact extend_whole (hinv hopen) hcarries.framed
          (hother hconnects hdisconnect (buffer.packet, count) (by simp))
  | send data count t hop hopen hframed =>
      intro _
      obtain ⟨hconnects, hdisconnect⟩ : ¬ op.Connects ∧ op ≠ .disconnect := by
        rcases hop with hreceives | ⟨⟨now, hpolls⟩, -⟩
        · exact ⟨hreceives.not_connects, hreceives.ne_disconnect⟩
        · exact ⟨hpolls.not_connects, hpolls.ne_disconnect⟩
      have hstream : acceptedBytes stream (op, user.transmitted data count t) =
          stream ++ data.take count := by
        simp [acceptedBytes, extendStream, hconnects]
      rw [hstream]
      exact extend_whole (hinv hopen) hframed
        (hother hconnects hdisconnect (data, count) (by simp))
  | ping now t t' hpolls hconnected =>
      intro hopen
      have hstream : acceptedBytes stream (op,
          user.transmitted pingReqPacket pingReqPacket.length t ++ user.clock t') =
          stream ++ pingReqPacket := by
        simp [acceptedBytes, extendStream, hpolls.not_connects]
      rw [hstream]
      exact (hinv hopen).append_word framed_pingreq
  -- From here on nothing is sent: the stream stays, or there is no connection any more.
  | pong t =>
      rw [hkept (by simp)]
      exact hinv.congr rfl
  | pingTimedOut now result =>
      rw [hkept (sends_reported _ result)]
      exact hinv.congr rfl
  | elapse => exact hinv.congr rfl
  | store => exact hinv.congr rfl
  | remove => exact hinv.congr rfl
  | stamp => exact hinv.congr rfl
  | settle buffer event result hopen =>
      rw [hkept (by simp)]
      exact hinv.congr rfl
  | accept buffer result t hreceives hopen =>
      rw [hkept (by simp)]
      exact fun _ => hinv hopen
  | drop => exact .of_not_connected rfl
  | refuse => exact .of_not_connected rfl
  | leave =>
      refine .of_not_connected ?_
      split_ifs
      · rfl
      · rfl
  | idle => exact .of_not_connected rfl
  | receive hreceives hopen hframe =>
      rw [hframe]
      exact hinv.congr rfl
  | obtainRx rxBuffer hreceives hopen hrx hframe =>
      rw [hframe]
      exact hinv.congr rfl
  | releaseRx => exact hinv.congr rfl
  | takeRx => exact hinv.congr rfl
  | giveBack => exact hinv.congr rfl

theorem steps_stream_whole (h : Steps (Transition user op) c labels c')
    (hwhole : SendsWhole (op, labels)) (hinv : StreamWhole c stream) :
    StreamWhole c' (acceptedBytes stream (op, labels)) := by
  induction h generalizing stream with
  | refl => exact hinv
  | @cons start middle finish first rest htransition _ ih =>
      have hfirst : SendsWhole (op, first) :=
        hwhole.imp_right fun h => h.imp_right fun hall send hmem =>
          hall send (by simp [hmem])
      have hrest : SendsWhole (op, rest) :=
        hwhole.imp_right fun h => h.imp_right fun hall send hmem =>
          hall send (by simp [hmem])
      have hsplit : acceptedBytes stream (op, first ++ rest) =
          acceptedBytes (acceptedBytes stream (op, first)) (op, rest) := by
        simp [acceptedBytes, List.foldl_append]
      rw [hsplit]
      exact ih hrest (htransition.stream_whole hfirst hinv)

/-! ## The stream in every run -/

/-- In every run in which only `MQTT_Connect` and `MQTT_Disconnect` have a packet accepted in part,
the bytes accepted since CONNECT are a sequence of whole packets whenever the context has a
connection. -/
theorem accepted_whole_packets (user : MQTTInitParams W) (memory : MQTTContext)
    {history : List (Op × List MQTTOutput)} {c : MQTTContext} (h : Run user memory history c)
    (hwhole : ∀ entry ∈ history, SendsWhole entry) (hopen : c.connectionState ≠ .notConnected) :
    Concatenation Framed (history.foldl acceptedBytes []) := by
  have hguarded : Guarded acceptedBytes (fun _ _ => True) [] history := .trivial history []
  suffices hkept : Guarded acceptedBytes (fun _ _ => True) [] history ∧
      (BaseInvariant c ∧ StreamWhole c (history.foldl acceptedBytes [])) from hkept.2.2 hopen
  refine Steps.preserves_guarded
    (fun c stream => BaseInvariant c ∧ StreamWhole c stream) ?_ h (hguarded.and_mem hwhole)
    ⟨base_invariant_init memory, .of_not_connected rfl⟩
  rintro c entry c' stream ⟨hbase, hstream⟩ hguard hexecutes
  refine ⟨.trivial _ _, hexecutes.base_invariant hbase, ?_⟩
  obtain ⟨op, labels, rfl, hsteps⟩ := hexecutes.steps hbase
  exact steps_stream_whole hsteps hguard.1.2 hstream

/-- The packet of `benchConnect`. -/
def benchConnectPacket : List UInt8 :=
  [controlCONNECT, 13, 0, 4, 77, 81, 84, 84, protocolLevel, connectCleanSessionFlag, 0, 100, 0, 1,
    99]

/-- The send function accepts one byte of a publish. -/
def partialPublish : List (Bench × Op) :=
  [(⟨1, 10, 100, false⟩, .connect benchConnect),
    (⟨2, 11, 100, false⟩, .parseReceivedData acceptingConnACK),
    (⟨1, 12, 1, false⟩, .publish benchPublish)]

/-- CONNECT and the first byte of PUBLISH have been accepted, and the connection is still open. -/
theorem partial_publish_not_whole :
    ∃ history c, Run benchUser blankContext history c ∧ c.connectionState = .connected ∧
      ¬ Concatenation Framed (history.foldl acceptedBytes []) := by
  have hrun : Run benchUser blankContext _ _ :=
    run_of_replayed (show (replay benchUser partialPublish _).isSome from rfl)
  refine ⟨_, _, hrun, by decide +kernel, ?_⟩
  have hstream : (replayed benchUser partialPublish (mqttInit blankContext)).1.foldl acceptedBytes
      [] = benchConnectPacket ++ [controlPUBLISH] := by decide +kernel
  have hconnect : Framed benchConnectPacket :=
    ⟨controlCONNECT, [13], benchConnectPacket.drop 2, by decide,
      ⟨[], 13, rfl, by simp, by decide⟩, by decide, by decide⟩
  have hpublish : Framed [controlPUBLISH, 4, 0, 1, 0x61, 0x62] :=
    ⟨controlPUBLISH, [4], [0, 1, 0x61, 0x62], rfl, ⟨[], 4, rfl, by simp, by decide⟩,
      by decide, by decide⟩
  rw [hstream]
  intro hwhole
  exact not_concatenation_of_prefix framed_prefix_code hpublish (by decide) (by decide)
    (by decide) (hwhole.drop_word framed_prefix_code hconnect)

/-- A publish is sent whole, and then the send function accepts nothing of another one. -/
def wholePublish : List (Bench × Op) :=
  partialPublish.take 2 ++
    [(⟨3, 12, 100, false⟩, .publish benchPublish), (⟨4, 13, 0, false⟩, .publish benchPublish)]

theorem accepted_whole_packets_open :
    ∃ history c, Run benchUser blankContext history c ∧ c.connectionState = .connected ∧
      history.foldl acceptedBytes [] =
        benchConnectPacket ++ [controlPUBLISH, 4, 0, 1, 0x61, 0x62] ∧
      Concatenation Framed (history.foldl acceptedBytes []) := by
  have hrun : Run benchUser blankContext _ _ :=
    run_of_replayed (show (replay benchUser wholePublish _).isSome from rfl)
  exact ⟨_, _, hrun, by decide +kernel, by decide +kernel, accepted_whole_packets benchUser
    blankContext hrun (by decide +kernel) (by decide +kernel)⟩

end TivaAws.Mqtt
