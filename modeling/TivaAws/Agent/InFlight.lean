import TivaAws.Agent.Requests
import TivaAws.Agent.Responses
import TivaAws.Mqtt.Ownership

/-!
# Packets and waiting tasks

A packet that waits for its acknowledgment is on the Tx list of its context, and the task that waits
for the same one has an entry in `xWaitingTasks` of its connection. The library and the agent tell
each other about the two by events only. `afterEvent` says what an event leaves of the packet
identifiers in flight. The Tx list follows the events that the library reports
(`transition_in_flight`), and the waiting tasks follow the events that the agent is told of
(`responses_in_flight`).
-/

namespace TivaAws.Agent

open Mqtt Sockets Session Table Labelled

variable {E : Type} {user : Environment E} {w w' : Endpoint E} {op : Op} {c c' : MQTTContext}
  {label : MQTTOutput} {labels : List MQTTOutput} {identifiers : List UInt16}

/-! ## Identifiers in flight -/

/-- The packet identifiers of the buffers on the Tx list. -/
def txIdentifiers (context : MQTTContext) : List UInt16 :=
  context.txBufferList.map fun buffer => buffer.bufferState.packetIdentifier

/-- The packet identifiers of the entries with a task. -/
def MQTTBrokerConnection.waitingIdentifiers (connection : MQTTBrokerConnection) : List UInt16 :=
  connection.requests.map Prod.snd

/-- What an event leaves of the identifiers in flight. -/
def afterEvent (identifiers : List UInt16) : MQTTEvent → List UInt16
  | .connACK returnCode usPacketIdentifier =>
      if returnCode = .connectionAccepted then identifiers.erase usPacketIdentifier
      else identifiers
  | .subACK _ usPacketIdentifier | .unSubACK usPacketIdentifier | .pubACK usPacketIdentifier
  | .timeout usPacketIdentifier => identifiers.erase usPacketIdentifier
  | .clientDisconnected _ => []
  | _ => identifiers

/-- The events that outputs report to the agent. -/
def callbackEvents (labels : List MQTTOutput) : List MQTTEvent := labels.filterMap callbackEvent

/-- What outputs leave of the identifiers in flight. -/
def afterOutputs (identifiers : List UInt16) (labels : List MQTTOutput) : List UInt16 :=
  (callbackEvents labels).foldl afterEvent identifiers

theorem after_event_answered {event : MQTTEvent} {usPacketIdentifier : UInt16}
    (h : answeredIdentifier event = some usPacketIdentifier) :
    afterEvent identifiers event = identifiers.erase usPacketIdentifier := by
  cases event with
  | connACK returnCode identifier =>
      simp only [answeredIdentifier] at h
      split_ifs at h with haccepted
      cases h
      exact if_pos haccepted
  | subACK _ _ => cases h; rfl
  | unSubACK _ => cases h; rfl
  | pubACK _ => cases h; rfl
  | timeout _ => cases h; rfl
  | _ => cases h

theorem after_event_ignored {event : MQTTEvent} (h : answeredIdentifier event = none)
    (hopen : ∀ reason, event ≠ .clientDisconnected reason) :
    afterEvent identifiers event = identifiers := by
  cases event with
  | connACK returnCode identifier =>
      simp only [answeredIdentifier] at h
      split_ifs at h with haccepted
      exact if_neg haccepted
  | clientDisconnected reason => exact absurd rfl (hopen reason)
  | subACK _ _ => cases h
  | unSubACK _ => cases h
  | pubACK _ => cases h
  | timeout _ => cases h
  | _ => rfl

/-- The order of the identifiers does not matter. -/
theorem after_event_perm {others : List UInt16} (h : identifiers.Perm others) (event : MQTTEvent) :
    (afterEvent identifiers event).Perm (afterEvent others event) := by
  cases hanswered : answeredIdentifier event with
  | some usPacketIdentifier =>
      rw [after_event_answered hanswered, after_event_answered hanswered]
      exact h.erase usPacketIdentifier
  | none =>
      by_cases hclosed : ∃ reason, event = .clientDisconnected reason
      · obtain ⟨reason, rfl⟩ := hclosed
        exact .refl _
      · have hopen : ∀ reason, event ≠ .clientDisconnected reason := fun reason heq =>
          hclosed ⟨reason, heq⟩
        rw [after_event_ignored hanswered hopen, after_event_ignored hanswered hopen]
        exact h

theorem after_outputs_perm {others : List UInt16} (h : identifiers.Perm others)
    (labels : List MQTTOutput) :
    (afterOutputs identifiers labels).Perm (afterOutputs others labels) := by
  unfold afterOutputs
  induction callbackEvents labels generalizing identifiers others with
  | nil => exact h
  | cons event rest ih => exact ih (after_event_perm h event)

theorem after_outputs_append (first second : List MQTTOutput) :
    afterOutputs identifiers (first ++ second) =
      afterOutputs (afterOutputs identifiers first) second := by
  unfold afterOutputs callbackEvents
  rw [List.filterMap_append, List.foldl_append]

/-! ## Outputs without events -/

@[simp] theorem callback_events_nil : callbackEvents [] = [] := rfl

@[simp] theorem callback_events_append (first second : List MQTTOutput) :
    callbackEvents (first ++ second) = callbackEvents first ++ callbackEvents second :=
  List.filterMap_append

@[simp] theorem callback_events_obtained (handle : MQTTBufferHandle) (rest : List MQTTOutput) :
    callbackEvents (.obtained handle :: rest) = callbackEvents rest := rfl

@[simp] theorem callback_events_returned (handle : MQTTBufferHandle) (rest : List MQTTOutput) :
    callbackEvents (.returned handle :: rest) = callbackEvents rest := rfl

@[simp] theorem callback_events_taken (handle : MQTTBufferHandle) (rest : List MQTTOutput) :
    callbackEvents (.taken handle :: rest) = callbackEvents rest := rfl

@[simp] theorem callback_events_access (offset count : Nat) (rest : List MQTTOutput) :
    callbackEvents (.access offset count :: rest) = callbackEvents rest := rfl

@[simp] theorem callback_events_handled (packet : List UInt8) (rest : List MQTTOutput) :
    callbackEvents (.handled packet :: rest) = callbackEvents rest := rfl

@[simp] theorem callback_events_reported (event : MQTTEvent) (result : Bool) :
    callbackEvents ((initParams user).reported event result) = [event] := rfl

@[simp] theorem callback_events_clock (tickCount : UInt64) :
    callbackEvents ((initParams user).clock tickCount) = [] := rfl

@[simp] theorem callback_events_transmitted (data : List UInt8) (count : Nat)
    (tickCount : UInt64) :
    callbackEvents ((initParams user).transmitted data count tickCount) = [] := by
  unfold MQTTInitParams.transmitted
  show callbackEvents (if _ then _ else _) = []
  split_ifs
  · exact callback_events_clock tickCount
  · rfl

@[simp] theorem callback_events_returns (context : MQTTContext) :
    callbackEvents context.returns = [] := by
  refine List.filterMap_eq_nil_iff.mpr fun label hmem => ?_
  rcases List.mem_append.mp hmem with hmem | hmem
  · obtain ⟨buffer, -, rfl⟩ := List.mem_map.mp hmem
    rfl
  · obtain ⟨handle, -, rfl⟩ := List.mem_map.mp hmem
    rfl

/-- Notices settle nothing. -/
theorem after_event_notice {event : MQTTEvent} (h : event.IsNotice) :
    afterEvent identifiers event = identifiers := by
  cases event with
  | publish _ => rfl
  | unexpectedConnACK => rfl
  | unexpectedPubACK => rfl
  | unexpectedSubACK => rfl
  | unexpectedUnSubACK => rfl
  | packetDropped => rfl
  | _ => exact absurd h id

theorem after_outputs_quiet (h : label.IsQuiet) :
    afterOutputs identifiers [label] = identifiers := by
  cases label with
  | eventCallback event result => exact after_event_notice h
  | _ => rfl

/-! ## The Tx list follows the events -/

/-- Unlinking a buffer takes its identifier out of flight. -/
theorem tx_identifiers_unlink {buffer : MQTTBuffer} (hmem : buffer ∈ c.txBufferList)
    (hdistinct : (c.txBufferList.map MQTTBuffer.handle).Nodup) :
    (txIdentifiers (c.unlink buffer.handle)).Perm
      ((txIdentifiers c).erase buffer.bufferState.packetIdentifier) := by
  obtain ⟨before, after, hlist⟩ := List.append_of_mem hmem
  rw [unlink_middle hlist hdistinct]
  unfold txIdentifiers
  rw [hlist, List.map_append, List.map_append, List.map_cons]
  have hmiddle := (@List.perm_middle _ buffer.bufferState.packetIdentifier
    (before.map fun buffer => buffer.bufferState.packetIdentifier)
    (after.map fun buffer => buffer.bufferState.packetIdentifier)).erase
      buffer.bufferState.packetIdentifier
  rw [List.erase_cons_head] at hmiddle
  exact hmiddle.symm

/-- Stamping a buffer leaves the identifiers as they are. -/
theorem tx_identifiers_stamp {buffer : MQTTBuffer} (hmem : buffer ∈ c.txBufferList)
    (hdistinct : (c.txBufferList.map MQTTBuffer.handle).Nodup) (recordedTickCount : UInt64)
    (timeoutTicks : UInt32) :
    txIdentifiers (storeTxBuffer (buffer.stamp recordedTickCount timeoutTicks) c) =
      txIdentifiers c := by
  unfold txIdentifiers storeTxBuffer
  rw [List.map_map]
  refine List.map_congr_left fun other hother => ?_
  show MQTTBufferState.packetIdentifier (MQTTBuffer.bufferState (if _ then _ else _)) = _
  split_ifs with hhandle
  · rw [List.inj_on_of_nodup_map hdistinct hother hmem hhandle]
    rfl
  · rfl

/-- An operation that submits no packet changes the Tx list exactly as the events it reports say. -/
theorem transition_in_flight (h : Transition (initParams user) op c labels c')
    (hconnects : ¬ op.Connects) (hawaits : ¬ op.Awaits)
    (hgive : ∀ handle, op ≠ .returnBuffer handle) (hreleased : ReleasedWhenDisconnected c)
    (hplaces : c.places.Nodup) :
    (txIdentifiers c').Perm (afterOutputs (txIdentifiers c) labels) := by
  have hdistinct : (c.txBufferList.map MQTTBuffer.handle).Nodup := (List.nodup_append.mp hplaces).1
  unfold afterOutputs
  cases h with
  | quiet hquiet => rw [← afterOutputs, after_outputs_quiet hquiet]
  | configure => exact .refl _
  | connect buffer t t' hop => exact absurd hop hconnects
  | request buffer t t' hop => exact absurd hop hawaits
  | transient buffer count t t' =>
      simp only [callback_events_obtained, callback_events_append, callback_events_clock,
        callback_events_transmitted, callback_events_returned, callback_events_nil,
        List.append_nil]
      split_ifs
      · exact .refl _
      · exact .refl _
  | send data count t =>
      rw [callback_events_transmitted]
      split_ifs
      · exact .refl _
      · exact .refl _
  | ping now t t' =>
      rw [callback_events_append, callback_events_transmitted, callback_events_clock]
      exact .refl _
  | pong t =>
      rw [callback_events_handled, callback_events_access, callback_events_access,
        callback_events_clock]
      exact .refl _
  | pingTimedOut now result => exact .refl _
  | elapse => exact .refl _
  | store => exact .refl _
  | remove => exact .refl _
  | stamp buffer now recordedTickCount timeoutTicks hop hmem =>
      rw [tx_identifiers_stamp hmem hdistinct]
      exact .refl _
  | settle buffer event result hstate hmem hsettles =>
      have hanswered :
          answeredIdentifier event = some buffer.bufferState.packetIdentifier := by
        cases hsettles with
        | subACK => rfl
        | unSubACK => rfl
        | pubACK => rfl
        | timeout => rfl
      rw [callback_events_append, callback_events_reported, callback_events_returned]
      show (txIdentifiers (c.unlink buffer.handle)).Perm (afterEvent (txIdentifiers c) event)
      rw [after_event_answered hanswered]
      exact tx_identifiers_unlink hmem hdistinct
  | accept buffer result t hreceives hstate hmem =>
      rw [callback_events_append, callback_events_reported, callback_events_returned,
        callback_events_clock]
      exact tx_identifiers_unlink hmem hdistinct
  | drop reason result =>
      rw [callback_events_append, callback_events_returns, callback_events_reported]
      exact .refl _
  | refuse buffer reason result notices =>
      rw [callback_events_append, callback_events_returned, callback_events_append,
        callback_events_returns, callback_events_reported, List.nil_append, List.foldl_append]
      exact .refl _
  | leave count t result =>
      rw [callback_events_append, callback_events_transmitted, callback_events_append,
        callback_events_reported, callback_events_returns]
      split_ifs
      · exact .refl _
      · exact .refl _
  | idle hop hstate =>
      -- Nothing is reported, but there is nothing in flight either.
      rw [callback_events_returns]
      unfold txIdentifiers
      rw [(hreleased hstate).txBufferList]
      exact .refl _
  | receive hreceives hstate hframe =>
      rw [hframe]
      exact .refl _
  | obtainRx rxBuffer hreceives hstate hrx hframe =>
      rw [hframe]
      exact .refl _
  | releaseRx rxBuffer hreceives hstate hrx =>
      have hunlinked : c.unlink rxBuffer.handle = c := by
        rw [places_rx_some hrx] at hplaces
        exact unlink_of_not_mem fun hmem =>
          (List.nodup_append.mp hplaces).2.2 _ hmem _ List.mem_cons_self rfl
      rw [hunlinked]
      exact .refl _
  | takeRx => exact .refl _
  | giveBack handle hop => exact absurd hop (hgive handle)

/-- An operation that submits a packet reports notices at most. -/
theorem transition_notices (h : Transition (initParams user) op c labels c')
    (hreceives : ¬ op.Receives) (hpolls : ∀ now, ¬ op.Polls now) (hdisconnect : op ≠ .disconnect) :
    ∀ event ∈ callbackEvents labels, event.IsNotice := by
  have hnone : callbackEvents labels = [] → ∀ event ∈ callbackEvents labels, event.IsNotice := by
    intro hnil event hmem
    rw [hnil] at hmem
    cases hmem
  cases h with
  | @quiet output hquiet =>
      cases output with
      | eventCallback reported result =>
          intro event hmem
          cases List.mem_singleton.mp hmem
          exact hquiet
      | _ => exact hnone rfl
  | configure => exact hnone rfl
  | connect => exact hnone (by simp)
  | request => exact hnone (by simp)
  | transient => exact hnone (by simp)
  | send => exact hnone (by simp)
  | ping now t t' hop => exact absurd hop (hpolls now)
  | pong t hop => exact absurd hop hreceives
  | pingTimedOut now result hop => exact absurd hop (hpolls now)
  | elapse => exact hnone rfl
  | store => exact hnone rfl
  | remove => exact hnone rfl
  | stamp => exact hnone rfl
  | settle buffer event result hstate hmem hsettles =>
      cases hsettles with
      | subACK returnCode hop => exact absurd hop hreceives
      | unSubACK hop => exact absurd hop hreceives
      | pubACK hop => exact absurd hop hreceives
      | timeout now hop => exact absurd hop (hpolls now)
  | accept buffer result t hop => exact absurd hop hreceives
  | drop reason result hop =>
      cases op with
      | parseReceivedData data => exact absurd trivial hreceives
      | periodic now => exact absurd rfl (hpolls now)
      | _ => exact absurd hop id
  | refuse buffer reason result notices hop => exact absurd hop hreceives
  | leave count t result hop => exact absurd hop hdisconnect
  | idle hop => exact absurd hop hdisconnect
  | receive => exact hnone rfl
  | obtainRx => exact hnone rfl
  | releaseRx => exact hnone rfl
  | takeRx => exact hnone rfl
  | giveBack => exact hnone rfl

/-! ## Buffers that are held -/

/-- What the user takes is no longer held. When the user returns it is not the concern of the
connection. -/
def surrendered : Move MQTTBufferHandle → Move MQTTBufferHandle
  | .lend handle => .release handle
  | move => move

/-- The buffers that are obtained and given away among outputs. -/
def holdings (labels : List MQTTOutput) : List (Move MQTTBufferHandle) :=
  (moves labels).map surrendered

/-- What is held after outputs. -/
def heldAfter (labels : List MQTTOutput) : Ledger MQTTBufferHandle :=
  (holdings labels).foldl Ledger.record .empty

/-- The pool hands out only buffers that are not held. -/
def HonestPool (labels : List MQTTOutput) : Prop :=
  Guarded Ledger.record Ledger.Honest .empty (holdings labels)

instance (labels : List MQTTOutput) : Decidable (HonestPool labels) :=
  inferInstanceAs (Decidable (Guarded _ _ _ _))

theorem holdings_append (first second : List MQTTOutput) :
    holdings (first ++ second) = holdings first ++ holdings second := by
  unfold holdings
  rw [moves_append, List.map_append]

theorem held_after_append (first second : List MQTTOutput) :
    heldAfter (first ++ second) = (holdings second).foldl Ledger.record (heldAfter first) := by
  unfold heldAfter
  rw [holdings_append, List.foldl_append]

theorem honest_pool_append {first second : List MQTTOutput} :
    HonestPool (first ++ second) ↔ HonestPool first ∧
      Guarded Ledger.record Ledger.Honest (heldAfter first) (holdings second) := by
  unfold HonestPool
  rw [holdings_append]
  exact guarded_append

/-- Only the transition that lends the Rx buffer lends anything. -/
theorem transition_lends (h : Transition (initParams user) op c labels c') :
    (∃ rxBuffer, labels = [.taken rxBuffer.handle] ∧ c.rxBuffer = some rxBuffer ∧
      c' = prvResetRxMessageState c) ∨ holdings labels = moves labels := by
  have hkept : (∀ handle, .lend handle ∉ moves labels) → holdings labels = moves labels := by
    intro hnone
    refine (List.map_congr_left fun move hmem => ?_).trans (List.map_id _)
    cases move with
    | lend handle => exact absurd hmem (hnone handle)
    | _ => rfl
  cases h with
  | takeRx rxBuffer _ _ hrx => exact .inl ⟨rxBuffer, rfl, hrx, rfl⟩
  | quiet hquiet => exact .inr (hkept (by simp [moves_quiet hquiet]))
  | refuse buffer reason result notices hreceives hstate hmem hconnect hnotices =>
      refine .inr (hkept ?_)
      rcases hnotices with rfl | ⟨returnCode, result', -, rfl⟩
      · simp
      · simp
  | _ => exact .inr (hkept (by simp))

/-- What is held are the buffers of the context, as long as the pool is honest. -/
theorem transition_holds {l : Ledger MQTTBufferHandle}
    (h : Transition (initParams user) op c labels c') (hop : ∀ handle, op ≠ .returnBuffer handle)
    (hbalanced : l.Balanced c.places)
    (hhonest : Guarded Ledger.record Ledger.Honest l (holdings labels)) :
    ((holdings labels).foldl Ledger.record l).Balanced c'.places := by
  rcases transition_lends h with ⟨rxBuffer, rfl, hrx, rfl⟩ | hsame
  · rw [places_rx_some hrx] at hbalanced
    have hreleased := (hbalanced.perm (List.perm_append_singleton _ _)).release.2
    rw [places_rx_none rfl]
    exact hreleased
  · rw [hsame] at hhonest ⊢
    exact (h.balanced hop hbalanced hhonest).2

/-- What operations hold, and what they leave in flight. -/
theorem steps_in_flight {l : Ledger MQTTBufferHandle}
    (h : Steps (Transition (initParams user) op) c labels c')
    (hop : ∀ handle, op ≠ .returnBuffer handle) (hreleased : ReleasedWhenDisconnected c)
    (hbalanced : l.Balanced c.places)
    (hhonest : Guarded Ledger.record Ledger.Honest l (holdings labels)) :
    ((holdings labels).foldl Ledger.record l).Balanced c'.places ∧
      (¬ op.Connects → ¬ op.Awaits →
        (txIdentifiers c').Perm (afterOutputs (txIdentifiers c) labels)) := by
  induction h generalizing l with
  | refl => exact ⟨hbalanced, fun _ _ => .refl _⟩
  | @cons start middle finish first rest htransition _ ih =>
      rw [holdings_append, guarded_append] at hhonest
      have hmiddle := transition_holds htransition hop hbalanced hhonest.1
      obtain ⟨hfinish, hrest⟩ := ih (htransition.released hreleased) hmiddle hhonest.2
      rw [holdings_append, List.foldl_append]
      refine ⟨hfinish, fun hconnects hawaits => ?_⟩
      have hfirst := transition_in_flight htransition hconnects hawaits hop hreleased
        hbalanced.places_nodup
      rw [after_outputs_append]
      exact (hrest hconnects hawaits).trans (after_outputs_perm hfirst rest)

/-! ## The waiting tasks follow the events -/

theorem mem_requests {connection : MQTTBrokerConnection} {request : Request} :
    request ∈ connection.requests ↔
      ∃ x : Fin maxParallelOps,
        (getElem connection.xWaitingTasks x x.isLt).request = some request := by
  unfold MQTTBrokerConnection.requests
  rw [List.mem_filterMap]
  constructor
  · rintro ⟨data, hmem, hdata⟩
    obtain ⟨x, hx, rfl⟩ := Vector.mem_iff_getElem.mp (Vector.mem_toList_iff.mp hmem)
    exact ⟨⟨x, hx⟩, hdata⟩
  · rintro ⟨x, hdata⟩
    exact ⟨_, Vector.mem_toList_iff.mpr (Vector.getElem_mem x.isLt), hdata⟩

theorem requests_eq_nil {connection : MQTTBrokerConnection}
    (h : ∀ x : Fin maxParallelOps, (getElem connection.xWaitingTasks x x.isLt).request = none) :
    connection.requests = [] := by
  refine List.eq_nil_iff_forall_not_mem.mpr fun request hmem => ?_
  obtain ⟨x, hx⟩ := mem_requests.mp hmem
  rw [h x] at hx
  cases hx

/-- An entry that waits for an identifier is a request with it. -/
theorem request_of_waits_for {data : MQTTNotificationData} {usPacketIdentifier : UInt16}
    (h : data.waitsFor usPacketIdentifier = true) :
    ∃ task, data.request = some (task, usPacketIdentifier) := by
  obtain ⟨htask, hidentifier⟩ := Bool.and_eq_true_iff.mp h
  obtain ⟨task, htask⟩ := Option.isSome_iff_exists.mp htask
  refine ⟨task, ?_⟩
  unfold MQTTNotificationData.request
  rw [htask, ← beq_iff_eq.mp hidentifier]
  rfl

theorem waits_for_of_request {data : MQTTNotificationData} {request : Request}
    (h : data.request = some request) : data.waitsFor request.2 = true := by
  obtain ⟨task, htask, rfl⟩ := Option.map_eq_some_iff.mp h
  unfold MQTTNotificationData.waitsFor
  rw [htask]
  exact beq_self_eq_true _

theorem Answers.waiting_identifiers {answered : List Request} (h : Answers w answered w') :
    w.connection.waitingIdentifiers.Perm
      (answered.map Prod.snd ++ w'.connection.waitingIdentifiers) := by
  have hmap := h.requests.map Prod.snd
  rw [List.map_append] at hmap
  exact hmap

/-- The task that waits for the identifier is told, if there is one. -/
theorem notify_if_waiting_answers (usPacketIdentifier : UInt16) (code : MQTTNotifyCode)
    (uxStatus : Bool) (w : Endpoint E) :
    ∃ answered, Answers w answered (notifyIfWaiting usPacketIdentifier code uxStatus w) ∧
      (notifyIfWaiting usPacketIdentifier code uxStatus w).connection.waitingIdentifiers.Perm
        (w.connection.waitingIdentifiers.erase usPacketIdentifier) := by
  unfold notifyIfWaiting
  cases hretrieved : prvRetrieveNotificationData usPacketIdentifier w.connection with
  | none =>
      refine ⟨[], .refl w, ?_⟩
      rw [List.erase_of_not_mem]
      intro hmem
      obtain ⟨request, hrequest, rfl⟩ := List.mem_map.mp hmem
      obtain ⟨x, hx⟩ := mem_requests.mp hrequest
      have hnot := firstIndex_eq_none_iff.mp hretrieved x
      rw [waits_for_of_request hx] at hnot
      cases hnot
  | some x =>
      obtain ⟨task, hrequest⟩ := request_of_waits_for (firstIndex_satisfies hretrieved)
      obtain ⟨hanswers, -⟩ := notify_waiting_some hrequest code uxStatus
      refine ⟨_, hanswers, ?_⟩
      have herase := hanswers.waiting_identifiers.erase usPacketIdentifier
      rw [List.map_singleton, List.singleton_append, List.erase_cons_head] at herase
      exact herase.symm

/-- Telling the task of one entry leaves entries without a task as they are, and its own is one. -/
theorem notify_waiting_entries (x : Fin maxParallelOps) (code : MQTTNotifyCode) (uxStatus : Bool)
    (w : Endpoint E) :
    ∃ answered, Answers w answered (notifyWaiting x code uxStatus w) ∧
      ∀ y : Fin maxParallelOps,
        y = x ∨ (getElem w.connection.xWaitingTasks y y.isLt).request = none →
        (getElem (notifyWaiting x code uxStatus w).connection.xWaitingTasks y y.isLt).request =
          none := by
  cases hrequest : w.connection.xWaitingTasks[x].request with
  | none =>
      rw [notify_waiting_none hrequest]
      refine ⟨[], .refl w, fun y hy => ?_⟩
      rcases hy with rfl | hy
      · exact hrequest
      · exact hy
  | some request =>
      obtain ⟨hanswers, hfree⟩ := notify_waiting_some hrequest code uxStatus
      refine ⟨_, hanswers, fun y hy => ?_⟩
      by_cases hyx : y = x
      · rw [hyx]
        exact hfree
      · have hemit := (notify_requesting_task_some hrequest code uxStatus w).2.1
        unfold notifyWaiting Endpoint.setWaiting
        simp only
        rw [getElem_set, if_neg hyx, hemit]
        exact hy.resolve_left hyx

/-- Telling the tasks of all entries leaves no entry with a task. -/
theorem notify_all_answers (entries : List (Fin maxParallelOps)) (w : Endpoint E) :
    ∃ answered, Answers w answered
        (entries.foldl (fun w x => notifyWaiting x .clientGotDisconnected false w) w) ∧
      ∀ y : Fin maxParallelOps,
        y ∈ entries ∨ (getElem w.connection.xWaitingTasks y y.isLt).request = none →
        (getElem (entries.foldl (fun w x => notifyWaiting x .clientGotDisconnected false w)
          w).connection.xWaitingTasks y y.isLt).request = none := by
  induction entries generalizing w with
  | nil => exact ⟨[], .refl w, fun y hy => hy.resolve_left List.not_mem_nil⟩
  | cons x rest ih =>
      obtain ⟨answered, hfirst, hentries⟩ :=
        notify_waiting_entries x .clientGotDisconnected false w
      obtain ⟨later, hrest, hfinish⟩ := ih (notifyWaiting x .clientGotDisconnected false w)
      refine ⟨answered ++ later, hfirst.trans hrest, fun y hy => hfinish y ?_⟩
      rcases hy with hmem | hfree
      · rcases List.mem_cons.mp hmem with rfl | hmem
        · exact .inr (hentries y (.inl rfl))
        · exact .inl hmem
      · exact .inr (hentries y (.inr hfree))

theorem undisturbed_call_user (user : Environment E) (event : MQTTAgentEvent) (w : Endpoint E) :
    Undisturbed w (callUser user event w).2 := by
  unfold callUser
  cases w.connection.pxCallback with
  | none => exact .refl w
  | some pxCallback =>
      refine ⟨rfl, ?_⟩
      show requestActions (w.emit _).outputs = _
      rw [request_actions_emit]
      exact List.append_nil _

/-- A disconnect is told to every task that waits. -/
theorem disconnect_answers (user : Environment E) (w : Endpoint E) :
    ∃ answered, Answers w answered (Agent.prvProcessReceivedDisconnect user w) ∧
      (Agent.prvProcessReceivedDisconnect user w).connection.waitingIdentifiers = [] := by
  unfold Agent.prvProcessReceivedDisconnect
  simp only
  generalize hclose : (if w.connection.xSocket ≠ socketsInvalidSocket then
    prvGracefulSocketClose user (callUser user .disconnect w).2 else w) = closed
  have hundisturbed : Undisturbed w closed := by
    subst hclose
    split_ifs
    · exact (undisturbed_call_user user .disconnect w).trans ⟨rfl, rfl⟩
    · exact .refl w
  obtain ⟨answered, hanswers, hfree⟩ := notify_all_answers (List.finRange maxParallelOps) closed
  refine ⟨answered, hundisturbed.answers.trans hanswers, ?_⟩
  unfold MQTTBrokerConnection.waitingIdentifiers
  rw [requests_eq_nil fun x => hfree x (.inl (List.mem_finRange x))]
  rfl

/-- An event changes the waiting tasks of the agent as it changes what is in flight. -/
theorem EventResponse.in_flight {event : MQTTEvent} (h : EventResponse user w event w') :
    ∃ answered, Answers w answered w' ∧ w'.connection.waitingIdentifiers.Perm
      (afterEvent w.connection.waitingIdentifiers event) := by
  cases h with
  | ignored hanswered hopen =>
      rw [after_event_ignored hanswered hopen]
      exact ⟨[], .refl w, .refl _⟩
  | answered code uxStatus hanswered =>
      rw [after_event_answered hanswered]
      exact notify_if_waiting_answers _ code uxStatus w
  | published data =>
      have hundisturbed := undisturbed_call_user user (.publish data) w
      refine ⟨[], hundisturbed.answers, ?_⟩
      unfold MQTTBrokerConnection.waitingIdentifiers
      rw [hundisturbed.requests]
      exact .refl _
  | disconnected reason =>
      obtain ⟨answered, hanswers, hnone⟩ := disconnect_answers user w
      exact ⟨answered, hanswers, by rw [hnone]; exact .refl _⟩

/-- Calls that tell the agent of notices at most leave the waiting tasks alone. -/
theorem responses_undisturbed (h : Responses (initParams user) w labels w')
    (hnotices : ∀ event ∈ callbackEvents labels, event.IsNotice) : Undisturbed w w' := by
  induction h with
  | nil => exact .refl _
  | @cons w middle w' label rest hresponds _ ih =>
      have hrest : ∀ event ∈ callbackEvents rest, event.IsNotice := fun event hmem =>
        hnotices event (List.mem_filterMap.mpr
          ((List.mem_filterMap.mp hmem).imp fun _ h => ⟨List.mem_cons_of_mem _ h.1, h.2⟩))
      refine Undisturbed.trans ?_ (ih hrest)
      cases endpoint_response hresponds with
      | outside environment => exact ⟨rfl, rfl⟩
      | sent pucData => exact ⟨rfl, rfl⟩
      | @event event _ result hevent =>
          have hnotice : event.IsNotice := hnotices event
            (List.mem_filterMap.mpr ⟨.eventCallback event result, List.mem_cons_self, rfl⟩)
          cases hevent with
          | ignored => exact .refl _
          | answered code uxStatus hanswered =>
              cases event with
              | connACK => exact absurd hnotice id
              | subACK => exact absurd hnotice id
              | unSubACK => exact absurd hnotice id
              | pubACK => exact absurd hnotice id
              | timeout => exact absurd hnotice id
              | _ => cases hanswered
          | published data => exact undisturbed_call_user user _ _
          | disconnected reason => exact absurd hnotice id

/-- The waiting tasks follow the events that calls of the library tell the agent of. -/
theorem responses_in_flight (h : Responses (initParams user) w labels w') :
    ∃ answered, Answers w answered w' ∧ w'.connection.waitingIdentifiers.Perm
      (afterOutputs w.connection.waitingIdentifiers labels) := by
  induction h with
  | nil w => exact ⟨[], .refl w, .refl _⟩
  | @cons w middle w' label rest hresponds _ ih =>
      obtain ⟨later, hrest, hfinish⟩ := ih
      have hsplit : ∀ identifiers, afterOutputs identifiers (label :: rest) =
          afterOutputs (afterOutputs identifiers [label]) rest :=
        fun _ => after_outputs_append [label] rest
      obtain ⟨answered, hfirst, hmiddle⟩ : ∃ answered, Answers w answered middle ∧
          middle.connection.waitingIdentifiers.Perm
            (afterOutputs w.connection.waitingIdentifiers [label]) := by
        cases endpoint_response hresponds with
        | @outside label environment hnone =>
            refine ⟨[], Undisturbed.answers ⟨rfl, rfl⟩, ?_⟩
            unfold afterOutputs callbackEvents
            rw [List.filterMap_cons_none hnone]
            exact .refl _
        | sent pucData => exact ⟨[], Undisturbed.answers ⟨rfl, rfl⟩, .refl _⟩
        | event result hevent => exact hevent.in_flight
      refine ⟨answered ++ later, hfirst.trans hrest, ?_⟩
      rw [hsplit]
      exact hfinish.trans (after_outputs_perm hmiddle rest)

end TivaAws.Agent
