import TivaAws.Agent.Callbacks

/-!
# Requests and their answers

A request is a task with the packet identifier it was given. The entries of `xWaitingTasks` are the
requests of a connection that wait for an answer, and a notification is an answer. `Answers` says
that an endpoint has answered some of the requests that were waiting and no others, and that the
rest still wait.
-/

namespace TivaAws.Agent

open Mqtt Sockets Table Lifetime

variable {E : Type} {user : Environment E} {w w' w'' : Endpoint E}

/-- A task and the packet identifier of what it has asked for. -/
abbrev Request := TaskHandle × UInt16

/-- The request that notification data belongs to, if there is a task. -/
def MQTTNotificationData.request (data : MQTTNotificationData) : Option Request :=
  data.xTaskToNotify.map fun task => (task, data.packetIdentifier)

/-- The requests of a connection that wait for an answer. -/
def MQTTBrokerConnection.requests (connection : MQTTBrokerConnection) : List Request :=
  connection.xWaitingTasks.toList.filterMap MQTTNotificationData.request

/-- A command acquires its request and a notification releases it. -/
def AgentOutput.requestAction : AgentOutput → Option (Action Request)
  | .received data => data.request.map .acquire
  | .notified task value => some (.release (task, messageIdentifierExtract value))
  | .callback _ _ _ => none
  | .assertFailed => none

/-- What has been done with requests so far. -/
def requestActions (outputs : List AgentOutput) : List (Action Request) :=
  outputs.filterMap AgentOutput.requestAction

/-! ## Answering -/

/-- Some requests of the connection have been answered, and the others still wait. -/
structure Answers (w : Endpoint E) (answered : List Request) (w' : Endpoint E) : Prop where
  actions : requestActions w'.outputs = requestActions w.outputs ++ answered.map .release
  requests : w.connection.requests.Perm (answered ++ w'.connection.requests)

theorem Answers.refl (w : Endpoint E) : Answers w [] w :=
  ⟨(List.append_nil _).symm, .refl _⟩

theorem Answers.trans {answered later : List Request} (hfirst : Answers w answered w')
    (hsecond : Answers w' later w'') : Answers w (answered ++ later) w'' := by
  refine ⟨?_, ?_⟩
  · rw [hsecond.actions, hfirst.actions, List.map_append, List.append_assoc]
  · rw [List.append_assoc]
    exact hfirst.requests.trans (hsecond.requests.append_left answered)

/-- The waiting tasks are as before, and no request has been received or answered. -/
structure Undisturbed (w w' : Endpoint E) : Prop where
  waiting : w'.connection.xWaitingTasks = w.connection.xWaitingTasks
  actions : requestActions w'.outputs = requestActions w.outputs

theorem Undisturbed.refl (w : Endpoint E) : Undisturbed w w := ⟨rfl, rfl⟩

theorem Undisturbed.trans (hfirst : Undisturbed w w') (hsecond : Undisturbed w' w'') :
    Undisturbed w w'' :=
  ⟨hsecond.waiting.trans hfirst.waiting, hsecond.actions.trans hfirst.actions⟩

theorem Undisturbed.requests (h : Undisturbed w w') :
    w'.connection.requests = w.connection.requests := by
  unfold MQTTBrokerConnection.requests
  rw [h.waiting]

theorem Undisturbed.answers (h : Undisturbed w w') : Answers w [] w' := by
  refine ⟨?_, ?_⟩
  · rw [h.actions, List.map_nil, List.append_nil]
  · rw [h.requests]
    exact .refl _

/-! ## Notifying -/

/-- The codes and the status leave the upper half of the message identifier alone. -/
theorem extract_outcome (data : MQTTNotificationData) (code : MQTTNotifyCode) (uxStatus : Bool) :
    messageIdentifierExtract (data.outcome code uxStatus) = data.packetIdentifier := by
  have hcode : code.toUInt32 >>> 16 = 0 := by cases code <;> rfl
  have hstatus : (if uxStatus then 1 else 0 : UInt32) >>> 16 = 0 := by cases uxStatus <;> rfl
  unfold messageIdentifierExtract MQTTNotificationData.packetIdentifier
    MQTTNotificationData.outcome messageIdentifierExtract
  rw [UInt32.shiftRight_or, UInt32.shiftRight_or, hcode, hstatus]
  simp

theorem request_of_none {data : MQTTNotificationData} (h : data.xTaskToNotify = none) :
    data.request = none := by
  unfold MQTTNotificationData.request
  rw [h]
  rfl

theorem notify_requesting_task_some {data : MQTTNotificationData} {request : Request}
    (h : data.request = some request) (code : MQTTNotifyCode) (uxStatus : Bool) (w : Endpoint E) :
    (prvNotifyRequestingTask data code uxStatus w).1.request = none ∧
      (prvNotifyRequestingTask data code uxStatus w).2 =
        w.emit (.notified request.1 (data.outcome code uxStatus)) ∧
      messageIdentifierExtract (data.outcome code uxStatus) = request.2 := by
  obtain ⟨task, htask, rfl⟩ := Option.map_eq_some_iff.mp h
  unfold prvNotifyRequestingTask
  rw [htask]
  exact ⟨rfl, rfl, extract_outcome data code uxStatus⟩

theorem notify_requesting_task_none {data : MQTTNotificationData}
    (h : data.request = none) (code : MQTTNotifyCode) (uxStatus : Bool) (w : Endpoint E) :
    prvNotifyRequestingTask data code uxStatus w = (data, w) := by
  have htask : data.xTaskToNotify = none := Option.map_eq_none_iff.mp h
  unfold prvNotifyRequestingTask
  rw [htask]

theorem request_actions_emit (output : AgentOutput) (w : Endpoint E) :
    requestActions (w.emit output).outputs =
      requestActions w.outputs ++ (output.requestAction).toList := by
  unfold requestActions Endpoint.emit
  rw [List.filterMap_append]
  cases h : output.requestAction with
  | none => simp [h]
  | some action => simp [h]

/-- Setting an entry of the waiting tasks exchanges the requests in it. -/
theorem requests_set_waiting (x : Fin maxParallelOps) (data : MQTTNotificationData)
    (w : Endpoint E) :
    ((getElem w.connection.xWaitingTasks x x.isLt).request.toList ++
        (w.setWaiting x data).connection.requests).Perm
      (data.request.toList ++ w.connection.requests) :=
  filterMap_set_perm MQTTNotificationData.request w.connection.xWaitingTasks x data

/-- The task of an entry is told and the entry is free again. -/
theorem notify_waiting_some {x : Fin maxParallelOps} {request : Request}
    (h : (getElem w.connection.xWaitingTasks x x.isLt).request = some request)
    (code : MQTTNotifyCode) (uxStatus : Bool) :
    Answers w [request] (notifyWaiting x code uxStatus w) ∧
      (getElem (notifyWaiting x code uxStatus w).connection.xWaitingTasks x x.isLt).request =
        none := by
  obtain ⟨hnone, hemit, hextract⟩ := notify_requesting_task_some h code uxStatus w
  have hset := requests_set_waiting x
    (prvNotifyRequestingTask w.connection.xWaitingTasks[x] code uxStatus w).1
    (prvNotifyRequestingTask w.connection.xWaitingTasks[x] code uxStatus w).2
  rw [hnone, hemit] at hset
  unfold notifyWaiting
  simp only
  rw [hemit]
  refine ⟨⟨?_, ?_⟩, ?_⟩
  · show requestActions (w.emit _).outputs = _
    rw [request_actions_emit, AgentOutput.requestAction, hextract]
    rfl
  · rw [show (w.emit (.notified request.1 _)).connection = w.connection from rfl, h] at hset
    exact hset.symm
  · show ((w.connection.xWaitingTasks.set x _)[x]).request = none
    rw [getElem_set, if_pos rfl]
    exact hnone

/-- Nothing happens for an entry without a task. -/
theorem notify_waiting_none {x : Fin maxParallelOps}
    (h : (getElem w.connection.xWaitingTasks x x.isLt).request = none) (code : MQTTNotifyCode)
    (uxStatus : Bool) :
    notifyWaiting x code uxStatus w = w := by
  unfold notifyWaiting
  rw [notify_requesting_task_none h]
  show w.setWaiting x w.connection.xWaitingTasks[x] = w
  unfold Endpoint.setWaiting
  rw [Fin.getElem_fin, Vector.set_getElem_self]

end TivaAws.Agent
