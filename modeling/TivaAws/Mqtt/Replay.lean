import TivaAws.Mqtt.Run

/-!
# Replaying operations

`replay` executes operations one after the other, each in a world of its own, and `run_of_replay`
turns what it computes into a run. `Bench` is a small world to replay in: a pool that always has a
fresh buffer, a clock that stands still and a send function with a limit.
-/

namespace TivaAws.Mqtt

open Labelled

variable {W : Type}

/-- Execute operations from a context and collect the history. -/
def replay (user : MQTTInitParams W) :
    List (W × Op) → MQTTContext → Option (List (Op × List MQTTOutput) × MQTTContext)
  | [], context => some ([], context)
  | (w, op) :: rest, context => do
      let s ← execute user ⟨context, w, []⟩ op
      let later ← replay user rest s.context
      some ((op, s.outputs) :: later.1, later.2)

/-- What is replayed from `MQTT_Init` is a run. -/
theorem run_of_replay {user : MQTTInitParams W} {calls : List (W × Op)} {context c : MQTTContext}
    {history : List (Op × List MQTTOutput)} (h : replay user calls context = some (history, c)) :
    Steps (Executes user) context history c := by
  induction calls generalizing context history with
  | nil =>
      cases h
      exact .refl _
  | cons call rest ih =>
      simp only [replay, Option.bind_eq_bind, Option.bind_eq_some_iff] at h
      obtain ⟨s, hexecute, later, hlater, heq⟩ := h
      cases heq
      exact .cons (.call call.1 hexecute) (ih hlater)

/-- The history and the context at the end of a replay, which is empty if an operation does not
return. -/
def replayed (user : MQTTInitParams W) (calls : List (W × Op)) (context : MQTTContext) :
    List (Op × List MQTTOutput) × MQTTContext :=
  (replay user calls context).getD ([], context)

/-- Calls that can be replayed to the end give a run. -/
theorem run_of_replayed {user : MQTTInitParams W} {calls : List (W × Op)} {context : MQTTContext}
    (h : (replay user calls context).isSome) :
    Steps (Executes user) context (replayed user calls context).1
      (replayed user calls context).2 := by
  obtain ⟨last, hlast⟩ := Option.isSome_iff_exists.mp h
  have hreplayed : replayed user calls context = last := by
    rw [replayed, hlast, Option.getD_some]
  rw [hreplayed]
  exact run_of_replay hlast

/-! ## A world to replay in -/

/-- The next free buffer, the tick count, how many bytes one send may accept and whether the user
takes the buffer of a publish. -/
structure Bench where
  nextHandle : MQTTBufferHandle
  ticks : UInt64
  limit : Nat
  takes : Bool

/-- The functions of the bench. -/
def benchUser : MQTTInitParams Bench where
  callback := some fun event w =>
    match event with
    | .publish _ => (w.takes, w)
    | _ => (false, w)
  send := fun data w => (min data.length w.limit, w)
  getTicks := some fun w => (w.ticks, w)
  getBuffer := fun requested w =>
    (some { handle := w.nextHandle, length := requested, bufferState := ⟨0, 0, 0⟩,
            data := fun _ => 0, requested_le := le_refl _ },
      { w with nextHandle := w.nextHandle + 1 })
  returnBuffer := fun _ w => w
  publishCallback := fun _ _ _ w => (false, w)

/-- Memory of a context that is all zero. -/
def blankContext : MQTTContext where
  txBufferList := []
  rxBuffer := none
  rxMessageState := ⟨.packetType, .store, 0, 0⟩
  rxFixedHeaderBuffer := fun _ => 0
  rxMessageReceivedLength := 0
  connectionState := .notConnected
  lastSentMessageTimestamp := 0
  nextPeriodicInvokeTicks := 0
  keepAliveActualIntervalTicks := 0
  pingRequestTimeoutTicks := 0
  waitingForPingResp := false
  subscriptionManager := ⟨Vector.replicate _ ⟨[], 0, none, false, .invalid⟩, 0⟩

/-- CONNECT of a client with a one-byte identifier. -/
def benchConnect : MQTTConnectParams where
  keepAliveIntervalSeconds := 100
  keepAliveActualIntervalTicks := 1000
  pingRequestTimeoutTicks := 500
  clientId := ⟨[0x63], by decide⟩
  userName := ⟨[], by decide⟩
  packetIdentifier := 1
  timeoutTicks := 100

/-- SUBSCRIBE to a filter of one character. -/
def benchSubscribe : MQTTSubscribeParams where
  topic := ⟨[0x61], by decide⟩
  qos := .qos1
  packetIdentifier := 3
  timeoutTicks := 100
  publishCallbackContext := 7
  publishCallback := some 9

/-- UNSUBSCRIBE from a filter of one character. -/
def benchUnsubscribe : MQTTUnsubscribeParams where
  topic := ⟨[0x61], by decide⟩
  packetIdentifier := 2
  timeoutTicks := 100

/-- PUBLISH with QoS 0. -/
def benchPublish : MQTTPublishParams where
  topic := ⟨[0x61], by decide⟩
  qos := .qos0
  data := [0x62]
  length_lt := by decide
  packetIdentifier := 3
  timeoutTicks := 100

/-- The CONNACK that accepts the connection. -/
def acceptingConnACK : List UInt8 := [controlCONNACK, 2, 0, 0]

end TivaAws.Mqtt
