import TivaAws.Agent.Callbacks
import TivaAws.Mqtt.Transition

/-!
# What the calls of the library do to a connection

The library calls the agent in the middle of its operations. `event_response` says once what the
callback for an event may do to the endpoint of the connection, and `endpoint_response` what any
call may do; what calls keep is derived from the two. No call fails an assertion (`Proceeds`).
-/

namespace TivaAws.Agent

open Mqtt Sockets Session

variable {E : Type} {user : Environment E} {w w' w'' : Endpoint E}
  {label : MQTTOutput} {labels : List MQTTOutput}

/-! ## Responses -/

/-- The packet identifier whose task the agent notifies when the event is reported. -/
def answeredIdentifier : MQTTEvent → Option UInt16
  | .connACK returnCode usPacketIdentifier =>
      if returnCode = .connectionAccepted then some usPacketIdentifier else none
  | .subACK _ usPacketIdentifier => some usPacketIdentifier
  | .unSubACK usPacketIdentifier => some usPacketIdentifier
  | .pubACK usPacketIdentifier => some usPacketIdentifier
  | .timeout usPacketIdentifier => some usPacketIdentifier
  | _ => none

/-- The code and the status with which it does so. When the connection is gone, every task that
waits is told of the disconnect. -/
def eventOutcome : MQTTEvent → MQTTNotifyCode × Bool
  | .connACK _ _ => (.connACKConnectionAccepted, true)
  | .subACK returnCode _ =>
      if returnCode ≠ .subACKFailure then (.subACKSubscriptionAccepted, true)
      else (.subACKSubscriptionRejected, false)
  | .unSubACK _ => (.unsubACKReceived, true)
  | .pubACK _ => (.pubACKReceived, true)
  | .timeout _ => (.operationTimedOut, false)
  | _ => (.clientGotDisconnected, false)

/-- What `prvMQTTEventCallback` may do to the endpoint. -/
inductive EventResponse (user : Environment E) (w : Endpoint E) :
    MQTTEvent → Endpoint E → Prop where
  | ignored {event : MQTTEvent} : answeredIdentifier event = none →
      (∀ reason, event ≠ .clientDisconnected reason) → EventResponse user w event w
  | answered {event : MQTTEvent} {usPacketIdentifier : UInt16} (code : MQTTNotifyCode)
      (uxStatus : Bool) : answeredIdentifier event = some usPacketIdentifier →
      eventOutcome event = (code, uxStatus) →
      EventResponse user w event (notifyIfWaiting usPacketIdentifier code uxStatus w)
  | published (data : MQTTPublishData) :
      EventResponse user w (.publish data) (callUser user (.publish data) w).2
  | disconnected (reason : MQTTDisconnectReason) :
      EventResponse user w (.clientDisconnected reason) (Agent.prvProcessReceivedDisconnect user w)

theorem event_response (user : Environment E) (event : MQTTEvent) (w : Endpoint E) :
    EventResponse user w event (prvMQTTEventCallback user event w).2 := by
  cases event with
  | connACK returnCode usPacketIdentifier =>
      show EventResponse user w _ (Agent.prvProcessReceivedCONNACK returnCode usPacketIdentifier w)
      unfold Agent.prvProcessReceivedCONNACK
      split_ifs with haccepted
      · exact .answered _ _ (if_pos haccepted) rfl
      · exact .ignored (if_neg haccepted) fun _ => MQTTEvent.noConfusion
  | subACK returnCode usPacketIdentifier =>
      show EventResponse user w _ (Agent.prvProcessReceivedSUBACK returnCode usPacketIdentifier w)
      unfold Agent.prvProcessReceivedSUBACK
      split_ifs with hfailed
      · exact .answered _ _ rfl (if_pos hfailed)
      · exact .answered _ _ rfl (if_neg hfailed)
  | unSubACK usPacketIdentifier => exact .answered _ _ rfl rfl
  | pubACK usPacketIdentifier => exact .answered _ _ rfl rfl
  | timeout usPacketIdentifier => exact .answered _ _ rfl rfl
  | publish data => exact .published data
  | clientDisconnected reason => exact .disconnected reason
  | unexpectedConnACK => exact .ignored rfl fun _ => MQTTEvent.noConfusion
  | unexpectedPubACK => exact .ignored rfl fun _ => MQTTEvent.noConfusion
  | unexpectedSubACK => exact .ignored rfl fun _ => MQTTEvent.noConfusion
  | unexpectedUnSubACK => exact .ignored rfl fun _ => MQTTEvent.noConfusion
  | packetDropped => exact .ignored rfl fun _ => MQTTEvent.noConfusion
  | pingTimeout => exact .ignored rfl fun _ => MQTTEvent.noConfusion

/-- The event that an output reports to the agent. -/
def callbackEvent : MQTTOutput → Option MQTTEvent
  | .eventCallback event _ => some event
  | _ => none

/-- What a call of the library out to the agent may do to the endpoint. -/
inductive EndpointResponse (user : Environment E) (w : Endpoint E) :
    MQTTOutput → Endpoint E → Prop where
  | outside {label : MQTTOutput} (environment : E) : callbackEvent label = none →
      EndpointResponse user w label (w.withEnvironment environment)
  | sent (pucData : List UInt8) :
      EndpointResponse user w (.sent pucData (prvMQTTSendCallback user pucData w).1)
        (prvMQTTSendCallback user pucData w).2
  | event {event : MQTTEvent} {w' : Endpoint E} (result : Bool) : EventResponse user w event w' →
      EndpointResponse user w (.eventCallback event result) w'

theorem endpoint_response (h : Responds (initParams user) w label w') :
    EndpointResponse user w label w' := by
  cases label with
  | obtained handle =>
      obtain ⟨requested, buffer, hget, -⟩ := h
      obtain rfl := congrArg Prod.snd hget
      exact .outside _ rfl
  | refused requested =>
      obtain rfl := congrArg Prod.snd h
      exact .outside _ rfl
  | returned handle =>
      obtain rfl : w' = _ := h
      exact .outside _ rfl
  | ticks count =>
      obtain ⟨getTicks, hsome, hget⟩ := h
      cases hsome
      obtain rfl := congrArg Prod.snd hget
      exact .outside _ rfl
  | sent data count =>
      obtain rfl := congrArg Prod.fst h
      obtain rfl := congrArg Prod.snd h
      exact .sent data
  | eventCallback event result =>
      obtain ⟨callback, hsome, hcall⟩ := h
      cases hsome
      obtain rfl := congrArg Prod.snd hcall
      exact .event result (event_response user event w)
  | publishCallback callback context publish result =>
      obtain rfl := congrArg Prod.snd h
      exact .outside _ rfl
  | event event =>
      obtain rfl : w' = w := h
      exact .outside w'.port.environment rfl
  | taken handle =>
      obtain rfl : w' = w := h
      exact .outside w'.port.environment rfl
  | access offset count =>
      obtain rfl : w' = w := h
      exact .outside w'.port.environment rfl
  | handled packet =>
      obtain rfl : w' = w := h
      exact .outside w'.port.environment rfl

/-! ## No assertion fails -/

/-- Outputs may have been added, but no failed assertion. -/
def Proceeds (w w' : Endpoint E) : Prop :=
  ∃ later, w'.outputs = w.outputs ++ later ∧ .assertFailed ∉ later

theorem Proceeds.of_outputs (h : w'.outputs = w.outputs) : Proceeds w w' :=
  ⟨[], h.trans (List.append_nil _).symm, List.not_mem_nil⟩

theorem Proceeds.refl (w : Endpoint E) : Proceeds w w := .of_outputs rfl

theorem Proceeds.trans (hfirst : Proceeds w w') (hsecond : Proceeds w' w'') : Proceeds w w'' := by
  obtain ⟨later, houtputs, hlater⟩ := hfirst
  obtain ⟨last, houtputs', hlast⟩ := hsecond
  refine ⟨later ++ last, ?_, ?_⟩
  · rw [houtputs', houtputs, List.append_assoc]
  · rw [List.mem_append]
    exact not_or.mpr ⟨hlater, hlast⟩

/-- Whether an assertion has failed is as before. -/
theorem Proceeds.asserted (h : Proceeds w w') :
    .assertFailed ∈ w'.outputs ↔ .assertFailed ∈ w.outputs := by
  obtain ⟨later, houtputs, hlater⟩ := h
  rw [houtputs, List.mem_append]
  exact or_iff_left hlater

theorem proceeds_emit {output : AgentOutput} (h : .assertFailed ≠ output) (w : Endpoint E) :
    Proceeds w (w.emit output) :=
  ⟨[output], rfl, fun hmem => h (List.mem_singleton.mp hmem)⟩

theorem proceeds_notify (data : MQTTNotificationData) (code : MQTTNotifyCode) (uxStatus : Bool)
    (w : Endpoint E) : Proceeds w (prvNotifyRequestingTask data code uxStatus w).2 := by
  unfold prvNotifyRequestingTask
  cases data.xTaskToNotify with
  | none => exact .refl w
  | some task => exact proceeds_emit AgentOutput.noConfusion w

theorem proceeds_notify_waiting (x : Fin maxParallelOps) (code : MQTTNotifyCode) (uxStatus : Bool)
    (w : Endpoint E) : Proceeds w (notifyWaiting x code uxStatus w) :=
  (proceeds_notify w.connection.xWaitingTasks[x] code uxStatus w).trans (.of_outputs rfl)

theorem proceeds_notify_if_waiting (usPacketIdentifier : UInt16) (code : MQTTNotifyCode)
    (uxStatus : Bool) (w : Endpoint E) :
    Proceeds w (notifyIfWaiting usPacketIdentifier code uxStatus w) := by
  unfold notifyIfWaiting
  cases prvRetrieveNotificationData usPacketIdentifier w.connection with
  | none => exact .refl w
  | some x => exact proceeds_notify_waiting x code uxStatus w

theorem proceeds_notify_all (waiting : List (Fin maxParallelOps)) (w : Endpoint E) :
    Proceeds w
      (waiting.foldl (fun w x => notifyWaiting x .clientGotDisconnected false w) w) := by
  induction waiting generalizing w with
  | nil => exact .refl w
  | cons x rest ih =>
      exact (proceeds_notify_waiting x .clientGotDisconnected false w).trans (ih _)

theorem proceeds_call_user (user : Environment E) (event : MQTTAgentEvent) (w : Endpoint E) :
    Proceeds w (callUser user event w).2 := by
  unfold callUser
  cases w.connection.pxCallback with
  | none => exact .refl w
  | some pxCallback => exact (proceeds_emit AgentOutput.noConfusion w).trans (.of_outputs rfl)

theorem proceeds_disconnect (user : Environment E) (w : Endpoint E) :
    Proceeds w (Agent.prvProcessReceivedDisconnect user w) := by
  unfold Agent.prvProcessReceivedDisconnect
  simp only
  refine Proceeds.trans ?_ (proceeds_notify_all _ _)
  split_ifs
  · exact (proceeds_call_user user .disconnect w).trans (.of_outputs rfl)
  · exact .refl w

theorem EndpointResponse.proceeds (h : EndpointResponse user w label w') : Proceeds w w' := by
  cases h with
  | outside environment => exact .of_outputs rfl
  | sent pucData => exact .of_outputs rfl
  | event result hevent =>
      cases hevent with
      | ignored => exact .refl w
      | answered code uxStatus => exact proceeds_notify_if_waiting _ code uxStatus w
      | published data => exact proceeds_call_user user _ w
      | disconnected => exact proceeds_disconnect user w

theorem responses_proceed (h : Responses (initParams user) w labels w') : Proceeds w w' := by
  induction h with
  | nil => exact .refl _
  | cons hresponds _ ih => exact (endpoint_response hresponds).proceeds.trans ih

end TivaAws.Agent
