import TivaAws.Mqtt.ParseSteps

/-!
# Received data in pieces

It does not matter how a stream of received bytes is cut into calls of `MQTT_ParseReceivedData`.
`Parses` is the loop of the function without its bound. An iteration that has enough bytes does the
same when more bytes follow, and one that uses up its bytes inside a message can be continued, so
parsing two pieces one after the other is parsing both together (`Parses.append`).
-/

namespace TivaAws.Mqtt

open Session ByteMemory

variable {W : Type}

/-! ## The loop without a bound -/

/-- The loop of `MQTT_ParseReceivedData` on the data leads from one session to another. -/
inductive Parses (user : MQTTInitParams W) : List UInt8 → Session W → Session W → Prop where
  | done (s) : Parses user [] s s
  | exit {data s} {iteration : ParseIteration W} {returnCode} : data ≠ [] →
      parseIteration user data s = some iteration → iteration.exit = some returnCode →
      Parses user data s iteration.session
  | next {data s s'} {iteration : ParseIteration W} : data ≠ [] →
      parseIteration user data s = some iteration → iteration.exit = none →
      Parses user (data.drop iteration.consumed) iteration.session s' → Parses user data s s'

variable {user : MQTTInitParams W} {s s' s'' : Session W} {data first second : List UInt8}

theorem parses_of_loop {rounds : Nat} {returnCode : MQTTReturnCode}
    (h : parseLoop user rounds data s = some (returnCode, s')) : Parses user data s s' := by
  induction rounds generalizing data s with
  | zero =>
      by_cases hdata : data = []
      · simp only [parseLoop, if_pos hdata, Option.some.injEq, Prod.mk.injEq] at h
        rw [hdata, ← h.2]
        exact .done s
      · simp [parseLoop, if_neg hdata] at h
  | succ rounds ih =>
      by_cases hdata : data = []
      · simp only [parseLoop, if_pos hdata, Option.some.injEq, Prod.mk.injEq] at h
        rw [hdata, ← h.2]
        exact .done s
      · simp only [parseLoop, if_neg hdata, Option.bind_eq_bind, Option.bind_eq_some_iff] at h
        obtain ⟨iteration, hiteration, h⟩ := h
        cases hexit : iteration.exit with
        | some exitCode =>
            rw [hexit] at h
            cases h
            exact .exit hdata hiteration hexit
        | none =>
            rw [hexit] at h
            exact .next hdata hiteration hexit (ih h)

/-- The loop leads to one session only. -/
theorem Parses.unique (h : Parses user data s s') (h' : Parses user data s s'') : s' = s'' := by
  induction h with
  | done =>
      cases h' with
      | done => rfl
      | exit hdata => exact absurd rfl hdata
      | next hdata => exact absurd rfl hdata
  | exit hdata hiteration hexit =>
      cases h' with
      | done => exact absurd rfl hdata
      | exit _ hiteration' =>
          rw [hiteration] at hiteration'
          cases hiteration'
          rfl
      | next _ hiteration' hexit' =>
          rw [hiteration] at hiteration'
          cases hiteration'
          exact absurd (hexit.symm.trans hexit') (by simp)
  | next hdata hiteration hexit _ ih =>
      cases h' with
      | done => exact absurd rfl hdata
      | exit _ hiteration' hexit' =>
          rw [hiteration] at hiteration'
          cases hiteration'
          exact absurd (hexit.symm.trans hexit') (by simp)
      | next _ hiteration' _ hrest =>
          rw [hiteration] at hiteration'
          cases hiteration'
          exact ih hrest

/-- `MQTT_ParseReceivedData` is its loop. -/
theorem parse_received_data_parses (user : MQTTInitParams W) (data : List UInt8) (s : Session W)
    (hinv : RxInvariant s.context) :
    ∃ s', (mqttParseReceivedData user data s).map Prod.snd = some s' ∧ Parses user data s s' ∧
      RxInvariant s'.context := by
  obtain ⟨returnCode, s', hparse, -, hinv'⟩ := parse_received_data_total user data data s hinv
  refine ⟨s', by rw [hparse]; rfl, parses_of_loop hparse, hinv'⟩

/-- Without a connection nothing is parsed. -/
theorem Parses.closed (h : Parses user data s s')
    (hstate : s.context.connectionState = .notConnected) : s' = s := by
  have hiteration : ∀ iteration, parseIteration user data s = some iteration →
      iteration.session = s ∧ iteration.exit ≠ none := by
    intro iteration h
    simp only [parseIteration, if_pos hstate, Option.some.injEq] at h
    subst h
    exact ⟨rfl, by simp⟩
  cases h with
  | done => rfl
  | exit _ h => exact (hiteration _ h).1
  | next _ h hexit => exact absurd hexit (hiteration _ h).2

/-! ## Iterations and what follows -/

theorem take_one_append (hfirst : first ≠ []) : (first ++ second).take 1 = first.take 1 := by
  cases first with
  | nil => exact absurd rfl hfirst
  | cons byte rest => rfl

/-- Copying twice is copying both pieces. -/
theorem copy_bytes_append (rxBuffer : MQTTBuffer) :
    (rxBuffer.copyBytes first).copyBytes second = rxBuffer.copyBytes (first ++ second) := by
  simp only [MQTTBuffer.copyBytes, List.length_append, Nat.add_assoc]
  rw [writeBytes_append]

/-- An iteration that ends inside a message is continued by the next one: the two together do what
one iteration does on all their bytes. -/
def ContinuedBy (user : MQTTInitParams W) (first second : List UInt8) (s : Session W)
    (iteration : ParseIteration W) : Prop :=
  iteration.exit = none ∧ iteration.consumed = first.length ∧
    ∀ following, parseIteration user second iteration.session = some following →
      ∃ whole, parseIteration user (first ++ second) s = some whole ∧
        whole.session = following.session ∧ whole.exit = following.exit ∧
        whole.consumed = first.length + following.consumed

section Message

variable (hinv : RxInvariant s.context)
  (hstate : s.context.connectionState ≠ .notConnected)
  (hnext : s.context.rxMessageState.rxNextByte = .message)

include hinv hstate hnext

/-- Storing enough bytes does not look at those that follow, and storing fewer can be continued. -/
theorem store_message_append {rxBuffer : MQTTBuffer}
    (haction : s.context.rxMessageState.rxMessageAction = .store)
    (hrx : s.context.rxBuffer = some rxBuffer) (second : List UInt8) :
    storeMessage user (first ++ second) rxBuffer s = storeMessage user first rxBuffer s ∨
      ContinuedBy user first second s (storeMessage user first rxBuffer s) := by
  obtain ⟨hlt, -⟩ : rxBuffer.dataLength < s.context.rxMessageState.totalMessageLength ∧
      s.context.rxMessageState.totalMessageLength ≤ rxBuffer.effectiveLength := by
    have hwell := hinv.wellFormed
    simpa only [RxWellFormed, hnext, haction, hrx, Option.some.injEq, exists_eq_left'] using hwell
  have hbound : s.context.rxMessageState.totalMessageLength < 2 ^ 32 :=
    Nat.lt_of_le_of_lt (hinv.lengthBounded hnext) (by decide)
  have hexpected := sub32_of_le (Nat.le_of_lt hlt) hbound
  generalize hcount : s.context.rxMessageState.totalMessageLength - rxBuffer.dataLength = expected
    at hexpected
  by_cases hpartial : first.length < expected
  · right
    have hstored : storeMessage user first rxBuffer s =
        { consumed := first.length
          session := s.update (MQTTContext.setRxBuffer (rxBuffer.copyBytes first))
          exit := none
          copies := [⟨rxBuffer.dataLength, first.length, rxBuffer.effectiveLength⟩]
          asserts := true } := by
      simp only [storeMessage, hexpected, if_pos hpartial]
    rw [hstored]
    refine ⟨rfl, rfl, ?_⟩
    intro following hfollowing
    have hsecond : parseIteration user second
        (s.update (MQTTContext.setRxBuffer (rxBuffer.copyBytes first))) =
        some (storeMessage user second (rxBuffer.copyBytes first)
          (s.update (MQTTContext.setRxBuffer (rxBuffer.copyBytes first)))) := by
      simp only [parseIteration, update_context, MQTTContext.setRxBuffer, if_neg hstate, hnext,
        haction, Option.map_some]
    have hwhole : parseIteration user (first ++ second) s =
        some (storeMessage user (first ++ second) rxBuffer s) := by
      simp only [parseIteration, if_neg hstate, hnext, haction, hrx, Option.map_some]
    rw [hsecond, Option.some.injEq] at hfollowing
    subst hfollowing
    refine ⟨_, hwhole, ?_⟩
    have hrest : sub32 s.context.rxMessageState.totalMessageLength
        (rxBuffer.copyBytes first).dataLength = expected - first.length := by
      simp only [MQTTBuffer.copyBytes]
      rw [sub32_of_le (by omega) hbound]
      omega
    have hset : ∀ buffer : MQTTBuffer,
        (s.update (MQTTContext.setRxBuffer (rxBuffer.copyBytes first))).update
          (MQTTContext.setRxBuffer buffer) = s.update (MQTTContext.setRxBuffer buffer) :=
      fun _ => rfl
    have hstate' : (s.update (MQTTContext.setRxBuffer
        (rxBuffer.copyBytes first))).context.rxMessageState = s.context.rxMessageState := rfl
    unfold storeMessage
    simp only [hexpected, hstate', hrest, List.length_append, copy_bytes_append, hset]
    by_cases hmore : first.length + second.length < expected
    · rw [if_pos hmore, if_pos (by omega)]
      exact ⟨rfl, rfl, rfl⟩
    · rw [if_neg hmore, if_neg (by omega)]
      have htake : (first ++ second).take expected =
          first ++ second.take (expected - first.length) := by
        rw [List.take_append, List.take_of_length_le (Nat.le_of_lt hpartial)]
      rw [htake]
      exact ⟨rfl, rfl, by simp only; omega⟩
  · left
    have hle : expected ≤ first.length := Nat.le_of_not_lt hpartial
    unfold storeMessage
    simp only [hexpected, if_neg hpartial, List.length_append, List.take_append_of_le_length hle]
    rw [if_neg (by omega)]

/-- Dropping enough bytes does not look at those that follow, and dropping fewer can be
continued. -/
theorem drop_message_append (haction : s.context.rxMessageState.rxMessageAction = .drop)
    (second : List UInt8) :
    dropMessage user (first ++ second) s = dropMessage user first s ∨
      ContinuedBy user first second s (dropMessage user first s) := by
  obtain ⟨-, hlt⟩ : s.context.rxBuffer = none ∧
      s.context.rxMessageReceivedLength < s.context.rxMessageState.totalMessageLength := by
    have hwell := hinv.wellFormed
    simpa only [RxWellFormed, hnext, haction] using hwell
  have hbound : s.context.rxMessageState.totalMessageLength < 2 ^ 32 :=
    Nat.lt_of_le_of_lt (hinv.lengthBounded hnext) (by decide)
  have hexpected := sub32_of_le (Nat.le_of_lt hlt) hbound
  generalize hcount : s.context.rxMessageState.totalMessageLength -
    s.context.rxMessageReceivedLength = expected at hexpected
  by_cases hpartial : first.length < expected
  · right
    have hdropped : dropMessage user first s =
        { consumed := first.length
          session := s.update (MQTTContext.countBytes first.length)
          exit := none, copies := [], asserts := true } := by
      simp only [dropMessage, hexpected, if_pos hpartial]
    rw [hdropped]
    refine ⟨rfl, rfl, ?_⟩
    intro following hfollowing
    have hsecond : parseIteration user second
        (s.update (MQTTContext.countBytes first.length)) =
        some (dropMessage user second (s.update (MQTTContext.countBytes first.length))) := by
      simp only [parseIteration, update_context, MQTTContext.countBytes, if_neg hstate, hnext,
        haction]
    have hwhole : parseIteration user (first ++ second) s =
        some (dropMessage user (first ++ second) s) := by
      simp only [parseIteration, if_neg hstate, hnext, haction]
    rw [hsecond, Option.some.injEq] at hfollowing
    subst hfollowing
    refine ⟨_, hwhole, ?_⟩
    have hrest : sub32 s.context.rxMessageState.totalMessageLength
        (s.context.rxMessageReceivedLength + first.length) = expected - first.length := by
      rw [sub32_of_le (by omega) hbound]
      omega
    have hcounted : ∀ count,
        (s.update (MQTTContext.countBytes first.length)).update (MQTTContext.countBytes count) =
          s.update (MQTTContext.countBytes (first.length + count)) := by
      intro count
      simp only [Session.update, MQTTContext.countBytes, Nat.add_assoc]
    have hstate' : (s.update (MQTTContext.countBytes first.length)).context.rxMessageState =
        s.context.rxMessageState := rfl
    have hlength : (s.update (MQTTContext.countBytes
        first.length)).context.rxMessageReceivedLength =
        s.context.rxMessageReceivedLength + first.length := rfl
    unfold dropMessage
    simp only [hexpected, hstate', hlength, hrest, List.length_append, hcounted]
    by_cases hmore : first.length + second.length < expected
    · rw [if_pos hmore, if_pos (by omega)]
      exact ⟨rfl, rfl, rfl⟩
    · rw [if_neg hmore, if_neg (by omega)]
      have hsum : first.length + (expected - first.length) = expected := by omega
      rw [hsum]
      exact ⟨rfl, rfl, rfl⟩
  · left
    have hle : expected ≤ first.length := Nat.le_of_not_lt hpartial
    unfold dropMessage
    simp only [hexpected, if_neg hpartial, List.length_append]
    rw [if_neg (by omega)]

end Message

/-- An iteration that has enough bytes does the same when more bytes follow, and one that ends
inside a message is continued by the next one. -/
theorem parse_iteration_append (hinv : RxInvariant s.context) (hfirst : first ≠ [])
    {iteration : ParseIteration W} (hiteration : parseIteration user first s = some iteration)
    (second : List UInt8) :
    parseIteration user (first ++ second) s = some iteration ∨
      ContinuedBy user first second s iteration := by
  unfold parseIteration at hiteration ⊢
  by_cases hstate : s.context.connectionState = .notConnected
  · rw [if_pos hstate] at hiteration ⊢
    exact Or.inl hiteration
  · rw [if_neg hstate] at hiteration ⊢
    cases hnext : s.context.rxMessageState.rxNextByte with
    | packetType =>
        rw [hnext] at hiteration
        left
        rw [← hiteration]
        have hcopy : MQTTContext.copyPacketType (first ++ second) =
            MQTTContext.copyPacketType first := by
          funext context
          simp only [MQTTContext.copyPacketType, MQTTContext.copyHeaderByte,
            take_one_append hfirst]
        simp only [receivePacketType, hcopy]
    | packetLength =>
        rw [hnext] at hiteration
        left
        rw [← hiteration]
        have hcopy : MQTTContext.copyHeaderByte (first ++ second) =
            MQTTContext.copyHeaderByte first := by
          funext context
          simp only [MQTTContext.copyHeaderByte, take_one_append hfirst]
        simp only [receivePacketLength, hcopy]
    | message =>
        rw [hnext] at hiteration
        simp only at hiteration ⊢
        cases haction : s.context.rxMessageState.rxMessageAction with
        | store =>
            rw [haction] at hiteration
            cases hrx : s.context.rxBuffer with
            | none => simp [hrx] at hiteration
            | some rxBuffer =>
                simp only [hrx, Option.map_some, Option.some.injEq] at hiteration ⊢
                rw [← hiteration]
                exact store_message_append hinv hstate hnext haction hrx second
        | drop =>
            rw [haction] at hiteration
            simp only [Option.some.injEq] at hiteration ⊢
            rw [← hiteration]
            exact drop_message_append hinv hstate hnext haction second

/-! ## Pieces -/

/-- An iteration that leaves the loop leaves the connection closed. -/
theorem parse_iteration_exit {iteration : ParseIteration W} {returnCode : MQTTReturnCode}
    (hiteration : parseIteration user data s = some iteration)
    (hexit : iteration.exit = some returnCode) :
    iteration.session.context.connectionState = .notConnected := by
  unfold parseIteration at hiteration
  by_cases hstate : s.context.connectionState = .notConnected
  · rw [if_pos hstate, Option.some.injEq] at hiteration
    rw [← hiteration]
    exact hstate
  · rw [if_neg hstate] at hiteration
    cases hnext : s.context.rxMessageState.rxNextByte with
    | packetType =>
        rw [hnext, Option.some.injEq] at hiteration
        rw [← hiteration] at hexit
        exact absurd hexit (by simp [receivePacketType])
    | packetLength =>
        rw [hnext, Option.some.injEq] at hiteration
        subst hiteration
        unfold receivePacketLength at hexit ⊢
        simp only at hexit ⊢
        split_ifs at hexit ⊢
        obtain ⟨-, -, hcontext⟩ := reset_and_report_spec user .malformedPacket
          (s.update (MQTTContext.copyHeaderByte data))
        rw [hcontext]
        rfl
    | message =>
        rw [hnext] at hiteration
        cases haction : s.context.rxMessageState.rxMessageAction with
        | store =>
            rw [haction] at hiteration
            cases hrx : s.context.rxBuffer with
            | none => simp [hrx] at hiteration
            | some rxBuffer =>
                simp only [hrx, Option.map_some, Option.some.injEq] at hiteration
                rw [← hiteration] at hexit
                unfold storeMessage at hexit
                simp only at hexit
                split_ifs at hexit
        | drop =>
            simp only [haction, Option.some.injEq] at hiteration
            rw [← hiteration] at hexit
            unfold dropMessage at hexit
            simp only at hexit
            split_ifs at hexit

/-- Parsing two pieces one after the other is parsing both together. -/
theorem Parses.append (hfirst : Parses user first s s') (hinv : RxInvariant s.context)
    (hsecond : Parses user second s' s'') : Parses user (first ++ second) s s'' := by
  induction hfirst with
  | done => exact hsecond
  | @exit data s iteration returnCode hdata hiteration hexit =>
      -- The connection is closed, so the second piece changes nothing.
      have hclosed := hsecond.closed (parse_iteration_exit hiteration hexit)
      subst hclosed
      rcases parse_iteration_append hinv hdata hiteration second with hsame | ⟨hstays, -⟩
      · exact .exit (List.append_ne_nil_of_left_ne_nil hdata second) hsame hexit
      · exact absurd (hstays.symm.trans hexit) (by simp)
  | @next data s s' iteration hdata hiteration hexit hrest ih =>
      obtain ⟨_, hsome, hsafe⟩ := parse_iteration_safe user data hdata hinv
      rw [hiteration] at hsome
      cases hsome
      have hwhole := List.append_ne_nil_of_left_ne_nil hdata second
      rcases parse_iteration_append hinv hdata hiteration second with hsame | ⟨-, hall, hcontinue⟩
      · refine .next hwhole hsame hexit ?_
        rw [List.drop_append_of_le_length hsafe.consumed_le]
        exact ih hsafe.invariant hsecond
      · -- The first piece is used up inside a message.
        rw [hall, List.drop_length] at hrest
        have hsession := hrest.unique (.done _)
        subst hsession
        cases hsecond with
        | done =>
            rw [List.append_nil]
            refine .next hdata hiteration hexit ?_
            rw [hall, List.drop_length]
            exact .done _
        | exit hsecond hfollowing hleave =>
            obtain ⟨whole, hiterates, hsession, hexits, -⟩ := hcontinue _ hfollowing
            rw [← hsession]
            exact .exit hwhole hiterates (hexits.trans hleave)
        | next hsecond hfollowing hstay hlater =>
            obtain ⟨whole, hiterates, hsession, hexits, hconsumed⟩ := hcontinue _ hfollowing
            refine .next hwhole hiterates (hexits.trans hstay) ?_
            rw [hsession, hconsumed, List.drop_length_add_append]
            exact hlater

/-- Call `MQTT_ParseReceivedData` on pieces of a stream, one after the other. -/
def parseChunks (user : MQTTInitParams W) : List (List UInt8) → Session W → Option (Session W)
  | [], s => some s
  | chunk :: rest, s => do
      let answer ← mqttParseReceivedData user chunk s
      parseChunks user rest answer.2

/-- Pieces of a stream are parsed like the stream. -/
theorem parse_chunks_parses (user : MQTTInitParams W) (chunks : List (List UInt8)) (s : Session W)
    (hinv : RxInvariant s.context) :
    ∃ s', parseChunks user chunks s = some s' ∧ Parses user chunks.flatten s s' ∧
      RxInvariant s'.context := by
  induction chunks generalizing s with
  | nil => exact ⟨s, rfl, .done s, hinv⟩
  | cons chunk rest ih =>
      obtain ⟨middle, hparse, hparses, hinv'⟩ := parse_received_data_parses user chunk s hinv
      obtain ⟨answer, hanswer, rfl⟩ := Option.map_eq_some_iff.mp hparse
      obtain ⟨s', hrest, hparses', hinv''⟩ := ih answer.2 hinv'
      refine ⟨s', ?_, hparses.append hinv hparses', hinv''⟩
      simp only [parseChunks, hanswer, Option.bind_eq_bind, Option.bind_some]
      exact hrest

end TivaAws.Mqtt
