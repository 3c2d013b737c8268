import TivaAws.Mqtt.Context
import TivaAws.Mqtt.RemainingLength

/-!
# The receive state

`RxWellFormed` says what the fields of the receive state mean in each of its states, and
`RxInvariant` adds what the parser itself relies on: the bytes of an unfinished "Remaining
Length" all continue, and the length of a message stays far below `2 ^ 32`.
-/

namespace TivaAws.Mqtt

/-- What the receive state says about the bytes received so far and about `xRxBuffer`. -/
def RxWellFormed (context : MQTTContext) : Prop :=
  match context.rxMessageState.rxNextByte, context.rxMessageState.rxMessageAction with
  | .packetType, _ => context.rxMessageReceivedLength = 0 ∧ context.rxBuffer = none
  | .packetLength, _ =>
      1 ≤ context.rxMessageReceivedLength ∧ context.rxMessageReceivedLength < fixedHeaderMaxSize ∧
        context.rxBuffer = none
  | .message, .store =>
      ∃ rxBuffer, context.rxBuffer = some rxBuffer ∧
        rxBuffer.dataLength < context.rxMessageState.totalMessageLength ∧
        context.rxMessageState.totalMessageLength ≤ rxBuffer.effectiveLength
  | .message, .drop =>
      context.rxBuffer = none ∧
        context.rxMessageReceivedLength < context.rxMessageState.totalMessageLength

/-- The received part of an unfinished "Remaining Length" field continues. -/
def RxHeaderContinues (context : MQTTContext) : Prop :=
  context.rxMessageState.rxNextByte = .packetLength →
    ∀ i, 1 ≤ i → i < context.rxMessageReceivedLength →
      Varint.Continues (context.rxFixedHeaderBuffer i)

/-- The length of a message comes from a "Remaining Length" of at most four bytes. -/
def RxLengthBounded (context : MQTTContext) : Prop :=
  context.rxMessageState.rxNextByte = .message →
    context.rxMessageState.totalMessageLength ≤ fixedHeaderMaxSize + maxRemainingLength

/-- The invariant of the receive state. -/
structure RxInvariant (context : MQTTContext) : Prop where
  wellFormed : RxWellFormed context
  headerContinues : RxHeaderContinues context
  lengthBounded : RxLengthBounded context

/-- The invariant reads the receive fields only. -/
theorem RxInvariant.congr {context other : MQTTContext} (h : RxInvariant context)
    (hstate : other.rxMessageState = context.rxMessageState)
    (hlength : other.rxMessageReceivedLength = context.rxMessageReceivedLength)
    (hheader : other.rxFixedHeaderBuffer = context.rxFixedHeaderBuffer)
    (hbuffer : other.rxBuffer = context.rxBuffer) : RxInvariant other := by
  obtain ⟨hwell, hcontinues, hbounded⟩ := h
  refine ⟨?_, ?_, ?_⟩
  · simpa only [RxWellFormed, hstate, hlength, hbuffer] using hwell
  · simpa only [RxHeaderContinues, hstate, hlength, hheader] using hcontinues
  · simpa only [RxLengthBounded, hstate] using hbounded

/-- Between two packets nothing is counted and there is no Rx buffer. -/
def AtBoundary (context : MQTTContext) : Prop :=
  context.rxMessageState.rxNextByte = .packetType ∧ context.rxMessageReceivedLength = 0 ∧
    context.rxBuffer = none

theorem AtBoundary.rx_invariant {context : MQTTContext} (h : AtBoundary context) :
    RxInvariant context := by
  obtain ⟨hstate, hlength, hbuffer⟩ := h
  refine ⟨?_, ?_, ?_⟩
  · simp only [RxWellFormed, hstate]
    exact ⟨hlength, hbuffer⟩
  · intro h
    simp [hstate] at h
  · intro h
    simp [hstate] at h

theorem at_boundary_reset_rx (context : MQTTContext) :
    AtBoundary (prvResetRxMessageState context) :=
  ⟨rfl, rfl, rfl⟩

end TivaAws.Mqtt
