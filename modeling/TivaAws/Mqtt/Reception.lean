import TivaAws.Mqtt.Replay

/-!
# The receive state in every run

Whatever a client has done since `MQTT_Init`, the receive state is well formed. It is so at the
head of every iteration of `MQTT_ParseReceivedData` too, where every iteration makes progress and
copies within its arrays, so the function returns on every input.
-/

namespace TivaAws.Mqtt

open Labelled

variable {W : Type} {user : MQTTInitParams W}

/-- The head of the loop of `MQTT_ParseReceivedData` is reached with these bytes left. -/
inductive LoopHead (user : MQTTInitParams W) (data : List UInt8) (s : Session W) :
    List UInt8 → Session W → Prop where
  | start : LoopHead user data s data s
  | next {rest : List UInt8} {s' : Session W} {iteration : ParseIteration W} :
      LoopHead user data s rest s' → rest ≠ [] → parseIteration user rest s' = some iteration →
      iteration.exit = none →
      LoopHead user data s (rest.drop iteration.consumed) iteration.session

theorem LoopHead.rx_invariant {data rest : List UInt8} {s s' : Session W}
    (hinv : RxInvariant s.context) (h : LoopHead user data s rest s') :
    RxInvariant s'.context := by
  induction h with
  | start => exact hinv
  | next _ hrest hiteration _ ih =>
      obtain ⟨iteration, hsome, hsafe⟩ := parse_iteration_safe user data hrest ih
      rw [hiteration] at hsome
      cases hsome
      exact hsafe.invariant

/-- In every run the receive state is well formed, and so it is at the head of every iteration of
the parser on whatever bytes come next. Each iteration leaves the loop or consumes a byte, all its
copies are in bounds and its assertions hold; the parser returns. -/
theorem receive_state_well_formed (user : MQTTInitParams W) (memory : MQTTContext)
    {history : List (Op × List MQTTOutput)} {c : MQTTContext} (h : Run user memory history c) :
    RxWellFormed c ∧ ∀ (data : List UInt8) (w : W),
      (∃ returnCode s', mqttParseReceivedData user data ⟨c, w, []⟩ = some (returnCode, s')) ∧
      ∀ rest s', LoopHead user data ⟨c, w, []⟩ rest s' →
        RxWellFormed s'.context ∧
          (rest ≠ [] → ∃ iteration, parseIteration user rest s' = some iteration ∧
            (iteration.exit = none → 1 ≤ iteration.consumed) ∧
            iteration.consumed ≤ rest.length ∧
            (∀ copy ∈ iteration.copies, copy.offset + copy.count ≤ copy.size) ∧
            iteration.asserts = true) := by
  have hinv := h.base_invariant.rx
  refine ⟨hinv.wellFormed, ?_⟩
  intro data w
  refine ⟨?_, ?_⟩
  · obtain ⟨returnCode, s', hparse, -⟩ := parse_received_data_total user data data
      ⟨c, w, []⟩ hinv
    exact ⟨returnCode, s', hparse⟩
  · intro rest s' hhead
    have hinv' := hhead.rx_invariant hinv
    refine ⟨hinv'.wellFormed, ?_⟩
    intro hrest
    obtain ⟨iteration, hsome, hsafe⟩ := parse_iteration_safe user data hrest
      hinv'
    exact ⟨iteration, hsome, hsafe.progress, hsafe.consumed_le, hsafe.inBounds, hsafe.asserts⟩

/-- CONNECT has been sent and the first byte of the answer has arrived. -/
def partialAnswer : List (Bench × Op) :=
  [(⟨1, 10, 100, false⟩, .connect benchConnect),
    (⟨2, 11, 100, false⟩, .parseReceivedData [controlCONNACK])]

theorem receive_state_partial_answer :
    ∃ history c, Run benchUser blankContext history c ∧
      c.rxMessageState.rxNextByte = .packetLength ∧ RxWellFormed c := by
  have hrun : Run benchUser blankContext _ _ :=
    run_of_replayed (show (replay benchUser partialAnswer _).isSome from rfl)
  exact ⟨_, _, hrun, rfl, (receive_state_well_formed benchUser blankContext hrun).1⟩

end TivaAws.Mqtt
