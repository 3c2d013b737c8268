import TivaAws.Agent.InStep
import TivaAws.Mqtt.RequestTimeout

/-!
# Tasks are told

A task that waits for its answer is told as soon as the library reports to the agent that its
packet has been acknowledged, that its time is up or that the connection is gone, and with the
outcome of that event; until then it waits on. `Told` says so of one connection between two points
of a run, and `RoundTells` of every round of the MQTT task. In every round all connections are read
and polled, so a request whose time is up at the poll is ended by it.
-/

namespace TivaAws.Agent

open Mqtt Sockets Session Table Runs Lifetime Labelled

variable {E : Type} {user : Environment E} {w w' w'' : Endpoint E} {s s' s'' : Session (Endpoint E)}
  {op : Op} {connection connection' connection'' : MQTTBrokerConnection}
  {events events' : List MQTTEvent} {later later' : List AgentOutput} {labels : List MQTTOutput}
  {label : MQTTOutput} {event : MQTTEvent} {x y : Fin maxParallelOps} {request : Request}
  {data : MQTTNotificationData} {command : MQTTEventData} {agent agent' : MQTTAgent E}
  {broker : Fin maxBrokers} {received : Option MQTTEventData}

/-! ## Events that end a request -/

/-- The event concerns the task that waits for a packet identifier: it answers the packet, or the
connection is gone. -/
def endsRequest (usPacketIdentifier : UInt16) (event : MQTTEvent) : Bool :=
  match event with
  | .clientDisconnected _ => true
  | _ => answeredIdentifier event == some usPacketIdentifier

/-- An entry of `xWaitingTasks`. -/
def MQTTBrokerConnection.entry (x : Fin maxParallelOps) (connection : MQTTBrokerConnection) :
    MQTTNotificationData :=
  getElem connection.xWaitingTasks x x.isLt

/-- Between two points every task that waits has been told of the first event that concerns it,
which frees its entry, or there was none and it waits on. -/
structure Told (connection : MQTTBrokerConnection) (events : List MQTTEvent)
    (later : List AgentOutput) (connection' : MQTTBrokerConnection) : Prop where
  ended : ∀ x request event, (connection.entry x).request = some request →
    events.find? (endsRequest request.2) = some event →
    (connection'.entry x).request = none ∧
      .notified request.1
        ((connection.entry x).outcome (eventOutcome event).1 (eventOutcome event).2) ∈ later
  waits : ∀ x request, (connection.entry x).request = some request →
    events.find? (endsRequest request.2) = none → connection'.entry x = connection.entry x

/-- No entry is taken. -/
def Frees (connection connection' : MQTTBrokerConnection) : Prop :=
  ∀ x, (connection.entry x).request = none → (connection'.entry x).request = none

/-- No two entries wait for the same identifier. -/
def MQTTBrokerConnection.Apart (connection : MQTTBrokerConnection) : Prop :=
  ∀ x y request request', (connection.entry x).request = some request →
    (connection.entry y).request = some request' → request.2 = request'.2 → x = y

theorem ends_answered {usPacketIdentifier : UInt16}
    (h : answeredIdentifier event = some usPacketIdentifier) (identifier : UInt16) :
    endsRequest identifier event = (usPacketIdentifier == identifier) := by
  cases event with
  | clientDisconnected => cases h
  | _ =>
      unfold endsRequest
      simp only [h]
      rfl

theorem ends_ignored (h : answeredIdentifier event = none)
    (hopen : ∀ reason, event ≠ .clientDisconnected reason) (identifier : UInt16) :
    endsRequest identifier event = false := by
  cases event with
  | clientDisconnected reason => exact absurd rfl (hopen reason)
  | _ =>
      unfold endsRequest
      simp only [h]
      rfl

theorem ends_notice (h : event.IsNotice) (identifier : UInt16) :
    endsRequest identifier event = false := by
  cases event with
  | publish | unexpectedConnACK | unexpectedPubACK | unexpectedSubACK | unexpectedUnSubACK
  | packetDropped => rfl
  | _ => exact absurd h id

theorem find_ends_notices (h : ∀ event ∈ events, event.IsNotice) (identifier : UInt16) :
    events.find? (endsRequest identifier) = none := by
  rw [List.find?_eq_none]
  intro event hmem
  rw [ends_notice (h event hmem)]
  exact Bool.false_ne_true

/-! ## One connection -/

/-- The same entries, and no event that concerns a task. -/
theorem told_of_same (hsame : connection'.xWaitingTasks = connection.xWaitingTasks)
    (hnone : ∀ identifier, events.find? (endsRequest identifier) = none)
    (later : List AgentOutput) : Told connection events later connection' := by
  have hentry : ∀ x, connection'.entry x = connection.entry x := fun x => by
    unfold MQTTBrokerConnection.entry
    rw [hsame]
  refine ⟨fun x request event _ hfind => ?_, fun x request _ _ => hentry x⟩
  rw [hnone] at hfind
  cases hfind

theorem frees_of_same (hsame : connection'.xWaitingTasks = connection.xWaitingTasks) :
    Frees connection connection' := by
  intro x hfree
  unfold MQTTBrokerConnection.entry at hfree ⊢
  rw [hsame]
  exact hfree

theorem Frees.trans (hfirst : Frees connection connection')
    (hsecond : Frees connection' connection'') : Frees connection connection'' :=
  fun x hfree => hsecond x (hfirst x hfree)

/-- What has happened later does not undo what has happened before. -/
theorem Told.trans (hfirst : Told connection events later connection')
    (hsecond : Told connection' events' later' connection'')
    (hfrees : Frees connection' connection'') :
    Told connection (events ++ events') (later ++ later') connection'' := by
  refine ⟨fun x request event hrequest hfind => ?_, fun x request hrequest hfind => ?_⟩
  · rw [List.find?_append] at hfind
    cases hfound : events.find? (endsRequest request.2) with
    | some found =>
        rw [hfound, Option.some_or, Option.some.injEq] at hfind
        obtain ⟨hfree, hmem⟩ := hfirst.ended x request found hrequest hfound
        exact ⟨hfrees x hfree, List.mem_append_left _ (hfind ▸ hmem)⟩
    | none =>
        rw [hfound, Option.none_or] at hfind
        have hsame := hfirst.waits x request hrequest hfound
        rw [← hsame] at hrequest ⊢
        obtain ⟨hfree, hmem⟩ := hsecond.ended x request event hrequest hfind
        exact ⟨hfree, List.mem_append_right _ hmem⟩
  · rw [List.find?_append, Option.or_eq_none_iff] at hfind
    have hsame := hfirst.waits x request hrequest hfind.1
    rw [← hsame] at hrequest ⊢
    exact hsecond.waits x request hrequest hfind.2

/-- An entry is as before, or it is free now. -/
theorem Told.entry (h : Told connection events later connection')
    (hfrees : Frees connection connection') (x : Fin maxParallelOps) :
    connection'.entry x = connection.entry x ∨ (connection'.entry x).request = none := by
  cases hrequest : (connection.entry x).request with
  | none => exact Or.inr (hfrees x hrequest)
  | some request =>
      cases hfind : events.find? (endsRequest request.2) with
      | none => exact Or.inl (h.waits x request hrequest hfind)
      | some event => exact Or.inr (h.ended x request event hrequest hfind).1

theorem Told.apart (h : Told connection events later connection')
    (hfrees : Frees connection connection') (hapart : connection.Apart) : connection'.Apart := by
  intro x y request request' hx hy hsame
  rcases h.entry hfrees x with hentry | hnone
  · rcases h.entry hfrees y with hentry' | hnone'
    · exact hapart x y request request' (hentry ▸ hx) (hentry' ▸ hy) hsame
    · rw [hnone'] at hy
      cases hy
  · rw [hnone] at hx
    cases hx

/-! ## Notifying -/

/-- A task has been told of the outcome, and its entry is free; the other entries are as before. -/
theorem notify_waiting_entry (x : Fin maxParallelOps) (code : MQTTNotifyCode) (uxStatus : Bool)
    (w : Endpoint E) :
    ((notifyWaiting x code uxStatus w).connection.entry x).request = none ∧
      (∀ y, y ≠ x →
        (notifyWaiting x code uxStatus w).connection.entry y = w.connection.entry y) ∧
      ∃ later, (notifyWaiting x code uxStatus w).outputs = w.outputs ++ later ∧
        ∀ request, (w.connection.entry x).request = some request →
          .notified request.1 ((w.connection.entry x).outcome code uxStatus) ∈ later := by
  cases hrequest : (w.connection.entry x).request with
  | none =>
      rw [notify_waiting_none hrequest]
      exact ⟨hrequest, fun y _ => rfl, [], (List.append_nil _).symm,
        fun _ habsurd => by cases habsurd⟩
  | some request =>
      obtain ⟨-, hfree⟩ := notify_waiting_some hrequest code uxStatus
      have hstored : w.connection.xWaitingTasks[x].request = some request := hrequest
      have hemit := (notify_requesting_task_some hstored code uxStatus w).2.1
      refine ⟨hfree, fun y hne => ?_, [.notified request.1 ((w.connection.entry x).outcome code
        uxStatus)], ?_, ?_⟩
      · unfold notifyWaiting Endpoint.setWaiting MQTTBrokerConnection.entry
        simp only
        rw [getElem_set, if_neg hne, hemit]
        rfl
      · exact congrArg Endpoint.outputs hemit
      · rintro other ⟨⟩
        exact List.mem_singleton_self _

/-- The entries that are gone through are told, each once. -/
theorem notify_all_entries {entries : List (Fin maxParallelOps)} (hnodup : entries.Nodup)
    (w : Endpoint E) :
    let told := entries.foldl (fun w x => notifyWaiting x .clientGotDisconnected false w) w
    ∃ later, told.outputs = w.outputs ++ later ∧
      (∀ x ∈ entries, (told.connection.entry x).request = none ∧
        ∀ request, (w.connection.entry x).request = some request →
          .notified request.1 ((w.connection.entry x).outcome .clientGotDisconnected false) ∈
            later) ∧
      ∀ x ∉ entries, told.connection.entry x = w.connection.entry x := by
  induction entries generalizing w with
  | nil =>
      exact ⟨[], (List.append_nil _).symm, fun _ habsurd => absurd habsurd List.not_mem_nil,
        fun _ _ => rfl⟩
  | cons x rest ih =>
      obtain ⟨hfree, hothers, later, houtputs, htold⟩ :=
        notify_waiting_entry x .clientGotDisconnected false w
      obtain ⟨hx, hrest⟩ := List.nodup_cons.mp hnodup
      obtain ⟨later', houtputs', hgone, hkept⟩ :=
        ih hrest (notifyWaiting x .clientGotDisconnected false w)
      refine ⟨later ++ later', ?_, fun y hmem => ?_, fun y hnot => ?_⟩
      · rw [← List.append_assoc, ← houtputs]
        exact houtputs'
      · rcases List.mem_cons.mp hmem with rfl | hmem
        · refine ⟨?_, fun request hrequest => List.mem_append_left _ (htold request hrequest)⟩
          rw [← hfree]
          exact congrArg MQTTNotificationData.request (hkept y hx)
        · have hne : y ≠ x := fun heq => hx (heq ▸ hmem)
          obtain ⟨hgone', htold'⟩ := hgone y hmem
          refine ⟨hgone', fun request hrequest => List.mem_append_right _ ?_⟩
          rw [← hothers y hne] at hrequest ⊢
          exact htold' request hrequest
      · obtain ⟨hne, hnot⟩ := not_or.mp (mt List.mem_cons.mpr hnot)
        exact (hkept y hnot).trans (hothers y hne)

/-! ## Calls of the library -/

/-- The tasks of a connection have been told of the events that concern them, and no entry has been
taken. -/
structure Tells (w : Endpoint E) (events : List MQTTEvent) (w' : Endpoint E) : Prop where
  frees : Frees w.connection w'.connection
  told : ∃ later, w'.outputs = w.outputs ++ later ∧ Told w.connection events later w'.connection

theorem Tells.trans (hfirst : Tells w events w') (hsecond : Tells w' events' w'') :
    Tells w (events ++ events') w'' := by
  obtain ⟨later, houtputs, htold⟩ := hfirst.told
  obtain ⟨later', houtputs', htold'⟩ := hsecond.told
  refine ⟨hfirst.frees.trans hsecond.frees, later ++ later', ?_,
    htold.trans htold' hsecond.frees⟩
  rw [houtputs', houtputs, List.append_assoc]

theorem Tells.apart (h : Tells w events w') (hapart : w.connection.Apart) :
    w'.connection.Apart := by
  obtain ⟨later, -, htold⟩ := h.told
  exact htold.apart h.frees hapart

/-- Nothing that concerns a task. -/
theorem tells_of_same (hsame : w'.connection.xWaitingTasks = w.connection.xWaitingTasks)
    (houtputs : ∃ later, w'.outputs = w.outputs ++ later)
    (hnone : ∀ identifier, events.find? (endsRequest identifier) = none) : Tells w events w' := by
  obtain ⟨later, houtputs⟩ := houtputs
  exact ⟨frees_of_same hsame, later, houtputs, told_of_same hsame hnone later⟩

theorem Tells.refl (w : Endpoint E) : Tells w [] w :=
  tells_of_same rfl ⟨[], (List.append_nil _).symm⟩ fun _ => rfl

theorem Proceeds.outputs_grow (h : Proceeds w w') : ∃ later, w'.outputs = w.outputs ++ later := by
  obtain ⟨later, houtputs, -⟩ := h
  exact ⟨later, houtputs⟩

/-- The task that waits for the identifier is told, and no other. -/
theorem tells_answered {usPacketIdentifier : UInt16} {code : MQTTNotifyCode} {uxStatus : Bool}
    (hanswered : answeredIdentifier event = some usPacketIdentifier)
    (houtcome : eventOutcome event = (code, uxStatus)) (hapart : w.connection.Apart) :
    Tells w [event] (notifyIfWaiting usPacketIdentifier code uxStatus w) := by
  have hends : ∀ identifier, [event].find? (endsRequest identifier) =
      if usPacketIdentifier = identifier then some event else none := by
    intro identifier
    rw [List.find?_singleton, ends_answered hanswered]
    simp only [beq_iff_eq]
  unfold notifyIfWaiting
  -- If nobody waits for the identifier, no request is ended.
  cases hretrieved : prvRetrieveNotificationData usPacketIdentifier w.connection with
  | none =>
      have hnot : ∀ x request, (w.connection.entry x).request = some request →
          usPacketIdentifier ≠ request.2 := by
        rintro x request hrequest rfl
        have hfalse := firstIndex_eq_none_iff.mp hretrieved x
        have htrue : (w.connection.entry x).waitsFor request.2 = true :=
          waits_for_of_request hrequest
        exact Bool.false_ne_true (hfalse.symm.trans htrue)
      refine ⟨fun _ hfree => hfree, [], (List.append_nil _).symm, ?_, fun _ _ _ _ => rfl⟩
      intro x request found hrequest hfind
      rw [hends, if_neg (hnot x request hrequest)] at hfind
      cases hfind
  | some x =>
      obtain ⟨task, hwaiting⟩ := request_of_waits_for (firstIndex_satisfies hretrieved)
      have hx : (w.connection.entry x).request = some (task, usPacketIdentifier) := hwaiting
      obtain ⟨hfree, hothers, later, houtputs, htold⟩ := notify_waiting_entry x code uxStatus w
      refine ⟨fun y hy => ?_, later, houtputs, ?_, ?_⟩
      · by_cases hyx : y = x
        · exact hyx ▸ hfree
        · rw [hothers y hyx]
          exact hy
      · intro y request found hrequest hfind
        rw [hends] at hfind
        split_ifs at hfind with hidentifier
        cases hfind
        -- The identifiers of the waiting tasks are different, so there is one entry with this one.
        obtain rfl := hapart y x request _ hrequest hx hidentifier.symm
        rw [houtcome]
        exact ⟨hfree, htold request hrequest⟩
      · intro y request hrequest hfind
        refine hothers y ?_
        rintro rfl
        rw [hx, Option.some.injEq] at hrequest
        rw [hends, if_pos (congrArg Prod.snd hrequest)] at hfind
        cases hfind

/-- A disconnect is told to every task that waits. -/
theorem tells_disconnected (reason : MQTTDisconnectReason) (w : Endpoint E) :
    Tells w [.clientDisconnected reason] (Agent.prvProcessReceivedDisconnect user w) := by
  unfold Agent.prvProcessReceivedDisconnect
  simp only
  generalize hclose : (if w.connection.xSocket ≠ socketsInvalidSocket then
    prvGracefulSocketClose user (callUser user .disconnect w).2 else w) = closed
  have hclosed : Tells w [] closed := by
    subst hclose
    split_ifs
    · exact tells_of_same (undisturbed_call_user user .disconnect w).waiting
        (proceeds_call_user user .disconnect w).outputs_grow fun _ => rfl
    · exact .refl w
  refine hclosed.trans ?_
  obtain ⟨later, houtputs, hgone, -⟩ := notify_all_entries (List.nodup_finRange _) closed
  refine ⟨fun x _ => (hgone x (List.mem_finRange x)).1, later, houtputs, ?_, ?_⟩
  · intro x request found hrequest hfind
    obtain rfl := Option.some.inj hfind
    obtain ⟨hfree, htold⟩ := hgone x (List.mem_finRange x)
    exact ⟨hfree, htold request hrequest⟩
  · intro x request _ hfind
    cases hfind

/-- What the callback of the agent does for an event. -/
theorem EventResponse.tells (h : EventResponse user w event w') (hapart : w.connection.Apart) :
    Tells w [event] w' := by
  cases h with
  | ignored hanswered hopen =>
      refine tells_of_same rfl ⟨[], (List.append_nil _).symm⟩ fun identifier => ?_
      rw [List.find?_singleton, ends_ignored hanswered hopen]
      rfl
  | answered code uxStatus hanswered houtcome =>
      exact tells_answered hanswered houtcome hapart
  | published data =>
      exact tells_of_same (undisturbed_call_user user _ w).waiting
        (proceeds_call_user user _ w).outputs_grow fun _ => rfl
  | disconnected reason => exact tells_disconnected reason w

theorem EndpointResponse.tells (h : EndpointResponse user w label w')
    (hapart : w.connection.Apart) : Tells w (callbackEvents [label]) w' := by
  cases h with
  | outside environment hnone =>
      unfold callbackEvents
      rw [List.filterMap_cons_none hnone]
      exact tells_of_same rfl ⟨[], (List.append_nil _).symm⟩ fun _ => rfl
  | sent pucData => exact tells_of_same rfl ⟨[], (List.append_nil _).symm⟩ fun _ => rfl
  | event result hevent => exact hevent.tells hapart

/-- Whatever the library reports in the course of its calls, the tasks are told. -/
theorem responses_tell (h : Responses (initParams user) w labels w')
    (hapart : w.connection.Apart) : Tells w (callbackEvents labels) w' := by
  induction h with
  | nil w => exact .refl w
  | @cons w middle w' label rest hresponds _ ih =>
      have hfirst := (endpoint_response hresponds).tells hapart
      have htrans := hfirst.trans (ih (hfirst.apart hapart))
      rw [← callback_events_append, List.singleton_append] at htrans
      exact htrans

/-! ## Sessions -/

/-- In a session the tasks have been told of what the library has reported. -/
def TellsTasks (s s' : Session (Endpoint E)) : Prop :=
  ∃ labels later, s'.outputs = s.outputs ++ labels ∧ s'.world.outputs = s.world.outputs ++ later ∧
    Told s.world.connection (callbackEvents labels) later s'.world.connection

theorem TellsTasks.trans (hfirst : TellsTasks s s') (hsecond : TellsTasks s' s'')
    (hfrees : Frees s'.world.connection s''.world.connection) : TellsTasks s s'' := by
  obtain ⟨labels, later, hlabels, hlater, htold⟩ := hfirst
  obtain ⟨labels', later', hlabels', hlater', htold'⟩ := hsecond
  refine ⟨labels ++ labels', later ++ later', ?_, ?_, ?_⟩
  · rw [hlabels', hlabels, List.append_assoc]
  · rw [hlater', hlater, List.append_assoc]
  · rw [callback_events_append]
    exact htold.trans htold' hfrees

/-- The library reports nothing that concerns a task, and the entries with a task stay. -/
theorem tells_tasks_of_kept
    (hkept : ∀ x request, (s.world.connection.entry x).request = some request →
      s'.world.connection.entry x = s.world.connection.entry x)
    (hgrows : ∃ later, s'.world.outputs = s.world.outputs ++ later)
    (hlabels : s'.outputs = s.outputs ++ labels)
    (hnotices : ∀ event ∈ callbackEvents labels, event.IsNotice) : TellsTasks s s' := by
  obtain ⟨later, hlater⟩ := hgrows
  refine ⟨labels, later, hlabels, hlater, fun x request event _ hfind => ?_,
    fun x request hrequest _ => hkept x request hrequest⟩
  rw [find_ends_notices hnotices] at hfind
  cases hfind

/-- Nothing concerns a task, and the library reports nothing. -/
theorem tells_tasks_of_same
    (hsame : s'.world.connection.xWaitingTasks = s.world.connection.xWaitingTasks)
    (hgrows : ∃ later, s'.world.outputs = s.world.outputs ++ later)
    (houtputs : s'.outputs = s.outputs) : TellsTasks s s' := by
  refine tells_tasks_of_kept (fun x _ _ => ?_) hgrows (houtputs.trans (List.append_nil _).symm)
    fun event hmem => absurd hmem List.not_mem_nil
  unfold MQTTBrokerConnection.entry
  rw [hsame]

/-- A call of the library. -/
theorem does_tells (hdoes : Does (initParams user) op s s')
    (hapart : s.world.connection.Apart) :
    TellsTasks s s' ∧ Frees s.world.connection s'.world.connection := by
  obtain ⟨labels, hcalls, -⟩ := hdoes
  have htells := responses_tell hcalls.responses hapart
  obtain ⟨later, hlater, htold⟩ := htells.told
  exact ⟨⟨labels, later, hcalls.outputs, hlater, htold⟩, htells.frees⟩

theorem TellsTasks.apart (h : TellsTasks s s')
    (hfrees : Frees s.world.connection s'.world.connection) (hapart : s.world.connection.Apart) :
    s'.world.connection.Apart := by
  obtain ⟨_, _, -, -, htold⟩ := h
  exact htold.apart hfrees hapart

/-- While a connection is managed its tasks are told. -/
theorem tells_kept_by_managing (user : Environment E) {start : Session (Endpoint E)}
    (hapart : start.world.connection.Apart) :
    KeptByManaging user fun s =>
      TellsTasks start s ∧ Frees start.world.connection s.world.connection where
  receives s h _ := ⟨h.1.trans (tells_tasks_of_same rfl ⟨[], (List.append_nil _).symm⟩ rfl)
    (frees_of_same rfl), h.2⟩
  ticks s h := ⟨h.1.trans (tells_tasks_of_same rfl ⟨[], (List.append_nil _).symm⟩ rfl)
    (frees_of_same rfl), h.2⟩
  does op s s' _ _ h hdoes := by
    obtain ⟨htells, hfrees⟩ := does_tells hdoes (h.1.apart h.2 hapart)
    exact ⟨h.1.trans htells hfrees, h.2.trans hfrees⟩

/-! ## Commands -/

/-- An entry is taken for the data of a command at most. -/
def Takes (data : MQTTNotificationData) (connection connection' : MQTTBrokerConnection) : Prop :=
  ∃ x₀, ∀ x, (connection.entry x).request = none →
    (connection'.entry x).request = none ∨ x = x₀ ∧ (connection'.entry x).request = data.request

/-- A command has been processed: the other tasks have been told, and its own may wait. -/
structure Processes (data : MQTTNotificationData) (s s' : Session (Endpoint E)) : Prop where
  tells : TellsTasks s s'
  takes : Takes data s.world.connection s'.world.connection

theorem Frees.takes (h : Frees connection connection') (data : MQTTNotificationData) :
    Takes data connection connection' :=
  ⟨⟨0, by decide⟩, fun x hfree => Or.inl (h x hfree)⟩

theorem Processes.refl (data : MQTTNotificationData) (s : Session (Endpoint E)) :
    Processes data s s :=
  ⟨tells_tasks_of_same rfl ⟨[], (List.append_nil _).symm⟩ rfl,
    Frees.takes (fun _ hfree => hfree) data⟩

/-- Telling the task of a command leaves those that wait alone. -/
theorem Processes.notify (h : Processes data s s') (code : MQTTNotifyCode) (uxStatus : Bool) :
    Processes data s
      (onEndpoint (fun w => (prvNotifyRequestingTask data code uxStatus w).2) s') := by
  have hconnection := (notify_actions data code uxStatus s'.world).1
  have hsame := congrArg MQTTBrokerConnection.xWaitingTasks hconnection
  refine ⟨h.tells.trans (tells_tasks_of_same hsame
    (proceeds_notify data code uxStatus s'.world).outputs_grow rfl) (frees_of_same hsame), ?_⟩
  show Takes data s.world.connection
    (prvNotifyRequestingTask data code uxStatus s'.world).2.connection
  rw [hconnection]
  exact h.takes

theorem set_waiting_entry {y : Fin maxParallelOps} (hne : y ≠ x) (data : MQTTNotificationData)
    (w : Endpoint E) : (w.setWaiting x data).connection.entry y = w.connection.entry y := by
  unfold Endpoint.setWaiting MQTTBrokerConnection.entry
  simp only
  rw [getElem_set, if_neg hne]

theorem set_waiting_self (x : Fin maxParallelOps) (data : MQTTNotificationData)
    (w : Endpoint E) : (w.setWaiting x data).connection.entry x = data := by
  unfold Endpoint.setWaiting MQTTBrokerConnection.entry
  simp only
  rw [getElem_set, if_pos rfl]

/-- The end of a command concerns the entry of the command only. -/
theorem finish_entries (data : MQTTNotificationData) (x : Fin maxParallelOps)
    (code : MQTTNotifyCode) (xStatus : Bool) (s : Session (Endpoint E)) :
    let finished := finishCommand data (some x) code xStatus s
    finished.outputs = s.outputs ∧
      (∃ later, finished.world.outputs = s.world.outputs ++ later) ∧
      (∀ y, y ≠ x → finished.world.connection.entry y = s.world.connection.entry y) ∧
      ((finished.world.connection.entry x).request = none ∨
        finished.world.connection.entry x = s.world.connection.entry x) := by
  unfold finishCommand
  cases xStatus with
  | true => exact ⟨rfl, ⟨[], (List.append_nil _).symm⟩, fun _ _ => rfl, Or.inr rfl⟩
  | false =>
      refine ⟨rfl, (proceeds_notify data code false s.world).outputs_grow, fun y hne => ?_,
        Or.inl ?_⟩
      · refine (set_waiting_entry hne _ _).trans ?_
        exact congrArg (MQTTBrokerConnection.entry y) (notify_actions data code false s.world).1
      · refine request_of_none ?_
        exact congrArg MQTTNotificationData.xTaskToNotify (set_waiting_self x _ _)

/-- A command that submits a packet leaves the tasks alone that wait for other ones. -/
theorem initiate_processes (code : MQTTNotifyCode)
    {run : Session (Endpoint E) → Bool × Session (Endpoint E)}
    (hrun : ∀ start, Submits user data.packetIdentifier start (run start))
    (s : Session (Endpoint E)) : Processes data s (initiate data code run s) := by
  unfold Agent.initiate
  rcases store_notification_cases data s with hstored | ⟨x, hfree, hstored⟩
  · rw [hstored]
    exact (Processes.refl data s).notify code false
  · rw [hstored]
    simp only [Option.isSome_some, if_true]
    have hsubmits := hrun (onEndpoint (fun w => w.setWaiting x data) s)
    generalize run (onEndpoint (fun w => w.setWaiting x data) s) = result at hsubmits ⊢
    obtain ⟨later, hlater⟩ := hsubmits.grows
    obtain ⟨op, labels, -, hnotices, houtputs, -⟩ := hsubmits.steps
    obtain ⟨hsame, ⟨told, htold⟩, hentries, hown⟩ := finish_entries data x code result.1 result.2
    have hundisturbed : ∀ y, result.2.world.connection.entry y =
        (s.world.setWaiting x data).connection.entry y := fun y => by
      unfold MQTTBrokerConnection.entry
      rw [hsubmits.undisturbed.waiting]
      rfl
    have hothers : ∀ y, y ≠ x →
        (finishCommand data (some x) code result.1 result.2).world.connection.entry y =
          s.world.connection.entry y := fun y hne => by
      rw [hentries y hne, hundisturbed, set_waiting_entry hne]
    refine ⟨tells_tasks_of_kept (fun y request hrequest => hothers y ?_) ⟨later ++ told, ?_⟩
      (hsame.trans houtputs) hnotices, x, fun y hy => ?_⟩
    · rintro rfl
      exact Option.some_ne_none request (hrequest.symm.trans hfree)
    · rw [htold, hlater, List.append_assoc]
      rfl
    · by_cases hyx : y = x
      · subst hyx
        refine hown.imp_right fun hkept => ⟨rfl, ?_⟩
        rw [hkept, hundisturbed, set_waiting_self]
      · rw [hothers y hyx]
        exact Or.inl hy

/-- A QoS 0 publish leaves the tasks alone that wait. -/
theorem publish_qos0_processes (user : Environment E) (params : MQTTPublishParams)
    (data : MQTTNotificationData) (s : Session (Endpoint E)) :
    Processes data s (mqttPublish (initParams user) params s).2 := by
  obtain ⟨⟨labels, hcalls, hsteps⟩, -, -⟩ := does_mqtt_publish (initParams user) params s
  have hnotices := steps_notices hsteps id (fun _ => id) Op.noConfusion
  have hundisturbed := responses_undisturbed hcalls.responses hnotices
  refine ⟨tells_tasks_of_kept (fun x _ _ => ?_)
    (responses_proceed hcalls.responses).outputs_grow hcalls.outputs hnotices,
    (frees_of_same hundisturbed.waiting).takes data⟩
  unfold MQTTBrokerConnection.entry
  rw [hundisturbed.waiting]

/-- Processing a command tells the tasks that wait of what the library reports. -/
theorem processes_command (user : Environment E) (command : MQTTEventData)
    (s : Session (Endpoint E)) (hapart : s.world.connection.Apart) :
    Processes command.xNotificationData s (processCommand user command s) := by
  -- Asking for the time changes neither the connection nor what has been put out.
  suffices hprocesses : Processes command.xNotificationData (checkedSession user command s)
      (processCommand user command s) from ⟨hprocesses.tells, hprocesses.takes⟩
  have hchecked := Processes.refl command.xNotificationData (checkedSession user command s)
  have houtcome := process_cases user command s
  generalize processCommand user command s = s' at houtcome ⊢
  cases houtcome with
  | services => exact hchecked
  | timedOut => exact hchecked.notify .operationTimedOut false
  | disconnects _ code uxStatus =>
      obtain ⟨htells, hfrees⟩ := does_tells (does_disconnect (initParams user)
        (checkedSession user command s)) hapart
      have hprocesses : Processes command.xNotificationData _ _ := ⟨htells, hfrees.takes _⟩
      exact hprocesses.notify code uxStatus
  | publishes _ params _ code uxStatus =>
      exact (publish_qos0_processes user params _ _).notify code uxStatus
  | submits _ code hrun => exact initiate_processes code hrun _

/-! ## Polling -/

/-- What the library reports other than notices is reported to the agent. -/
theorem transition_reports {c c' : MQTTContext} (h : Transition (initParams user) op c labels c')
    (hmem : .event event ∈ labels) (hnotice : ¬ event.IsNotice) :
    event ∈ callbackEvents labels := by
  have hreported : ∀ {other : MQTTEvent} {result : Bool},
      .event event ∈ (initParams user).reported other result → event = other := by
    intro other result hmem
    simp [MQTTInitParams.reported, initParams] at hmem
    exact hmem
  have hclock : ∀ {t : UInt64}, .event event ∉ (initParams user).clock t := by
    intro t
    simp [MQTTInitParams.clock, initParams]
  have htransmitted : ∀ {data : List UInt8} {count : Nat} {t : UInt64},
      .event event ∉ (initParams user).transmitted data count t := by
    intro data count t
    unfold MQTTInitParams.transmitted
    split_ifs
    · simpa using hclock
    · simp
  have hreturns : ∀ {context : MQTTContext}, .event event ∉ context.returns := by
    intro context
    simp [MQTTContext.returns]
  -- Every event of a transition is one that the callback is called for, notices apart.
  cases h with
  | quiet hquiet =>
      obtain rfl := List.mem_singleton.mp hmem
      exact absurd hquiet hnotice
  | connect => simp [hclock, htransmitted] at hmem
  | request => simp [hclock, htransmitted] at hmem
  | transient => simp [hclock, htransmitted] at hmem
  | send => exact absurd hmem htransmitted
  | ping => simp [hclock, htransmitted] at hmem
  | pong => simp [hclock] at hmem
  | pingTimedOut now result =>
      obtain rfl := hreported hmem
      exact List.mem_singleton_self _
  | settle buffer other result =>
      simp only [List.mem_append, List.mem_singleton, reduceCtorEq, or_false] at hmem
      obtain rfl := hreported hmem
      simp
  | accept buffer result t =>
      simp only [List.mem_append, List.mem_cons, reduceCtorEq, hclock, or_false] at hmem
      obtain rfl := hreported hmem
      simp
  | drop reason result =>
      simp only [List.mem_append, hreturns, false_or] at hmem
      obtain rfl := hreported hmem
      simp
  | refuse buffer reason result notices hreceives hstate hbuffer hconnect hnotices =>
      simp only [List.mem_append, List.mem_cons, reduceCtorEq, false_or, hreturns] at hmem
      rcases hmem with hmem | hmem
      · rcases hnotices with rfl | ⟨returnCode, result', -, rfl⟩
        · cases hmem
        · obtain rfl := hreported hmem
          simp
      · obtain rfl := hreported hmem
        simp
  | leave count t result =>
      simp only [List.mem_append, htransmitted, hreturns, false_or, or_false] at hmem
      obtain rfl := hreported hmem
      simp
  | idle => exact absurd hmem hreturns
  | obtainRx => simp at hmem
  | releaseRx => simp at hmem
  | takeRx => simp at hmem
  | giveBack => simp at hmem
  | _ => exact absurd hmem List.not_mem_nil

theorem steps_report {c c' : MQTTContext} (h : Steps (Transition (initParams user) op) c labels c')
    (hmem : .event event ∈ labels) (hnotice : ¬ event.IsNotice) :
    event ∈ callbackEvents labels := by
  induction h with
  | refl => cases hmem
  | cons htransition _ ih =>
      rw [callback_events_append, List.mem_append]
      rcases List.mem_append.mp hmem with hmem | hmem
      · exact Or.inl (transition_reports htransition hmem hnotice)
      · exact Or.inr (ih hmem)

theorem timeout_event_not_notice (buffer : MQTTBuffer) : ¬ buffer.timeoutEvent.IsNotice := by
  unfold MQTTBuffer.timeoutEvent
  split_ifs
  · exact id
  · exact id

/-- `MQTT_Periodic` reports the end of every request whose time is up. -/
theorem periodic_reports (user : Environment E) (hbase : BaseInvariant s.context)
    (hconfined : ConnectConfined s.context) :
    ∃ reports, (invokePeriodic user s).1.outputs = s.outputs ++ reports ∧
      ((s.context.txBufferList.map MQTTBuffer.handle).Nodup →
        ∀ buffer ∈ s.context.txBufferList, buffer.elapsed (s.world.call user.getTicks).1 = true →
          buffer.timeoutEvent ∈ callbackEvents reports) := by
  obtain ⟨⟨labels, hcalls, hsteps⟩, -⟩ := executed (initParams user)
    (s := { s with world := (s.world.call user.getTicks).2 })
    (.periodic (s.world.call user.getTicks).1) hbase rfl
  refine ⟨labels, hcalls.outputs, fun hdistinct buffer hmem helapsed => ?_⟩
  obtain ⟨polled, hpolled⟩ := periodic_polled (initParams user) (s.world.call user.getTicks).1
    { s with world := (s.world.call user.getTicks).2 } hbase.released hconfined hdistinct
  have hlabels : labels = polled :=
    List.append_cancel_left (hcalls.outputs.symm.trans hpolled.calls.outputs)
  refine steps_report hsteps ?_ (timeout_event_not_notice buffer)
  rw [hlabels]
  exact (hpolled.ended buffer hmem helapsed).1

/-! ## Rounds -/

namespace MQTTAgent

/-- Between two points of a run every task that waits has been told of the first event that concerns
it among those that the library has reported for its connection, or it waits on. -/
def TellsTasks (agent agent' : MQTTAgent E) : Prop :=
  ∃ later, agent'.outputs = agent.outputs ++ later ∧ ∀ broker, ∃ labels,
    agent'.outputsOf broker = agent.outputsOf broker ++ labels ∧
      Told (agent.connections broker) (callbackEvents labels) later (agent'.connections broker)

/-- The agent after the command of a round, if there is one. -/
def processed (user : Environment E) (received : Option MQTTEventData) (agent : MQTTAgent E) :
    MQTTAgent E :=
  match received with
  | none => agent
  | some command => agent.command user command

/-- Nothing has happened to a connection. -/
structure SameAt (broker : Fin maxBrokers) (agent agent' : MQTTAgent E) : Prop where
  context : agent'.contexts broker = agent.contexts broker
  connection : agent'.connections broker = agent.connections broker
  outputsOf : agent'.outputsOf broker = agent.outputsOf broker

/-- What is kept from round to round. -/
structure Served (agent : MQTTAgent E) : Prop where
  linked : agent.Linked
  answering : agent.Answering
  apart : ∀ broker, (agent.connections broker).Apart
  confined : ∀ broker, ConnectConfined (agent.contexts broker)

theorem TellsTasks.refl (agent : MQTTAgent E) : agent.TellsTasks agent :=
  ⟨[], (List.append_nil _).symm, fun _ => ⟨[], (List.append_nil _).symm,
    told_of_same rfl (fun _ => rfl) []⟩⟩

theorem TellsTasks.trans {agent agent' agent'' : MQTTAgent E} (hfirst : agent.TellsTasks agent')
    (hsecond : agent'.TellsTasks agent'')
    (hfrees : ∀ broker, Frees (agent'.connections broker) (agent''.connections broker)) :
    agent.TellsTasks agent'' := by
  obtain ⟨later, hlater, htold⟩ := hfirst
  obtain ⟨later', hlater', htold'⟩ := hsecond
  refine ⟨later ++ later', ?_, fun broker => ?_⟩
  · rw [hlater', hlater, List.append_assoc]
  · obtain ⟨labels, hlabels, hfirst⟩ := htold broker
    obtain ⟨labels', hlabels', hsecond⟩ := htold' broker
    refine ⟨labels ++ labels', ?_, ?_⟩
    · rw [hlabels', hlabels, List.append_assoc]
    · rw [callback_events_append]
      exact hfirst.trans hsecond (hfrees broker)

theorem SameAt.refl (broker : Fin maxBrokers) (agent : MQTTAgent E) :
    agent.SameAt broker agent := ⟨rfl, rfl, rfl⟩

theorem SameAt.trans {agent'' : MQTTAgent E} (hfirst : agent.SameAt broker agent')
    (hsecond : agent'.SameAt broker agent'') : agent.SameAt broker agent'' :=
  ⟨hsecond.context.trans hfirst.context, hsecond.connection.trans hfirst.connection,
    hsecond.outputsOf.trans hfirst.outputsOf⟩

theorem same_at_store {broker other : Fin maxBrokers} (hne : other ≠ broker)
    (s : Session (Endpoint E)) (agent : MQTTAgent E) :
    agent.SameAt other (agent.store broker s) := by
  refine ⟨Function.update_of_ne hne _ _, Function.update_of_ne hne _ _, ?_⟩
  rw [outputs_of_store, if_neg (Ne.symm hne), List.append_nil]

theorem store_at (broker : Fin maxBrokers) (s : Session (Endpoint E)) (agent : MQTTAgent E) :
    (agent.store broker s).contexts broker = s.context ∧
      (agent.store broker s).connections broker = s.world.connection ∧
      (agent.store broker s).outputsOf broker = agent.outputsOf broker ++ s.outputs := by
  refine ⟨Function.update_self _ _ _, Function.update_self _ _ _, ?_⟩
  rw [outputs_of_store, if_pos rfl]

/-- What happens in the session of one connection concerns its tasks only. -/
theorem tells_store (h : Agent.TellsTasks (agent.session broker) s) :
    agent.TellsTasks (agent.store broker s) := by
  obtain ⟨labels, later, hlabels, hlater, htold⟩ := h
  refine ⟨later, hlater, fun other => ?_⟩
  by_cases hother : other = broker
  · subst hother
    obtain ⟨-, hconnection, houtputs⟩ := store_at other s agent
    refine ⟨labels, ?_, ?_⟩
    · rw [houtputs, hlabels]
      rfl
    · rw [hconnection]
      exact htold
  · have hsame := same_at_store hother s agent
    refine ⟨[], by rw [hsame.outputsOf, List.append_nil], ?_⟩
    rw [hsame.connection]
    exact told_of_same rfl (fun _ => rfl) later

theorem frees_store (h : Frees (agent.connections broker) s.world.connection)
    (other : Fin maxBrokers) :
    Frees (agent.connections other) ((agent.store broker s).connections other) := by
  by_cases hother : other = broker
  · subst hother
    rw [(store_at other s agent).2.1]
    exact h
  · rw [(same_at_store hother s agent).connection]
    exact fun _ hfree => hfree

end MQTTAgent

/-! ## What is kept from round to round -/

theorem confined_kept_by_managing (user : Environment E) :
    KeptByManaging user fun s => ConnectConfined s.context where
  receives _ h _ := h
  ticks _ h := h
  does _ _ _ _ hbase h hdoes := by
    obtain ⟨labels, -, hsteps⟩ := hdoes
    exact steps_confined hsteps hbase.released h

theorem process_linked_confined (user : Environment E) (command : MQTTEventData)
    (hlinked : LinkedSession s) (hconfined : ConnectConfined s.context) :
    LinkedSession (processCommand user command s) ∧
      ConnectConfined (processCommand user command s).context := by
  have hkept : KeptByCommands user fun s => LinkedSession s ∧ ConnectConfined s.context := by
    refine ⟨fun s s' hsame hproceeds hcontext h => ⟨?_, hcontext ▸ h.2⟩,
      fun op s s' hop h hexecute => ⟨?_, ?_⟩⟩
    · exact (linked_kept_by_commands user).same s s' hsame hproceeds hcontext h.1
    · exact (linked_kept_by_commands user).executes op s s' hop h.1 hexecute
    · obtain ⟨⟨labels, -, hsteps⟩, -⟩ := executed (initParams user) op h.1.base hexecute
      exact steps_confined hsteps h.1.base.released h.2
  refine process_command_session hkept command ⟨hlinked, hconfined⟩ ?_
  intro params xTicksToWait s' _ _ _ _ h
  have hsubmits : Submits user _ s' _ :=
    submits_connect params command.xNotificationData xTicksToWait s'
  obtain ⟨op, labels, -, -, -, hsteps⟩ := hsubmits.steps
  exact ⟨h.1.run_connect params _ xTicksToWait, steps_confined hsteps h.1.base.released h.2⟩

/-- A command whose identifier is not in flight leaves the identifiers of the entries apart. -/
theorem Processes.apart (h : Processes data s s') (hapart : s.world.connection.Apart)
    (hfresh : ∀ request ∈ data.request, request.2 ∉ s.world.connection.waitingIdentifiers) :
    s'.world.connection.Apart := by
  obtain ⟨labels, later, -, -, htold⟩ := h.tells
  obtain ⟨x₀, htakes⟩ := h.takes
  -- An entry that holds a request has held it before, or it is the one that has been taken.
  have hcases : ∀ x request, (s'.world.connection.entry x).request = some request →
      (s.world.connection.entry x).request = some request ∨
        x = x₀ ∧ data.request = some request := by
    intro x request hrequest
    cases hbefore : (s.world.connection.entry x).request with
    | none =>
        rcases htakes x hbefore with hnone | ⟨hx, hdata⟩
        · rw [hnone] at hrequest
          cases hrequest
        · exact Or.inr ⟨hx, hdata.symm.trans hrequest⟩
    | some before =>
        cases hfind : (callbackEvents labels).find? (endsRequest before.2) with
        | none =>
            rw [htold.waits x before hbefore hfind, hbefore] at hrequest
            exact Or.inl hrequest
        | some event =>
            rw [(htold.ended x before event hbefore hfind).1] at hrequest
            cases hrequest
  have hnew : ∀ {x request request'}, (s.world.connection.entry x).request = some request →
      data.request = some request' → request.2 ≠ request'.2 := by
    intro x request request' hx hdata heq
    exact hfresh request' hdata (heq ▸ List.mem_map_of_mem (mem_requests.mpr ⟨x, hx⟩))
  intro x y request request' hx hy hsame
  rcases hcases x request hx with hx | ⟨rfl, hx⟩
  · rcases hcases y request' hy with hy | ⟨rfl, hy⟩
    · exact hapart x y request request' hx hy hsame
    · exact absurd hsame (hnew hx hy)
  · rcases hcases y request' hy with hy | ⟨rfl, hy⟩
    · exact absurd hsame.symm (hnew hy hx)
    · rfl

namespace MQTTAgent

theorem served_initial (memory : Fin maxBrokers → MQTTContext) (environment : E) :
    (MQTTAgent.initial memory environment).Served := by
  refine ⟨linked_initial memory environment, answering_initial memory environment, ?_,
    fun broker => .of_not_connected rfl⟩
  intro broker x y request request' hx
  have hfree : request ∈ MQTTBrokerConnection.initial.requests := mem_requests.mpr ⟨x, hx⟩
  rw [requests_initial] at hfree
  cases hfree

/-- Storing a session of a connection keeps what is kept of the others. -/
theorem served_store (hlinked : agent.Linked) (hinStep : agent.InStep)
    (haparts : ∀ broker, (agent.connections broker).Apart)
    (hconfines : ∀ broker, ConnectConfined (agent.contexts broker)) (hsession : LinkedSession s)
    (hanswering : Agent.Answering (agent.requestsOf (others broker)) (agent.outputsOf broker) s)
    (hapart : s.world.connection.Apart) (hconfined : ConnectConfined s.context) :
    (agent.store broker s).Served := by
  refine ⟨hlinked.store hsession, hinStep.store hanswering, fun other => ?_, fun other => ?_⟩
  · by_cases hother : other = broker
    · subst hother
      rw [(store_at other s agent).2.1]
      exact hapart
    · rw [(same_at_store hother s agent).connection]
      exact haparts other
  · by_cases hother : other = broker
    · subst hother
      rw [(store_at other s agent).1]
      exact hconfined
    · rw [(same_at_store hother s agent).context]
      exact hconfines other

end MQTTAgent

/-! ## Managing all connections -/

theorem KeptByManaging.and {K K' : Session (Endpoint E) → Prop} (h : KeptByManaging user K)
    (h' : KeptByManaging user K') : KeptByManaging user fun s => K s ∧ K' s where
  receives s hkept hopen := ⟨h.receives s hkept.1 hopen, h'.receives s hkept.2 hopen⟩
  ticks s hkept := ⟨h.ticks s hkept.1, h'.ticks s hkept.2⟩
  does op s s' hop hbase hkept hdoes :=
    ⟨h.does op s s' hop hbase hkept.1 hdoes, h'.does op s s' hop hbase hkept.2 hdoes⟩

/-- A connection is read and polled between two points of a run: what its socket delivers goes to
the library, and every request whose time is up when the clock is read then is reported to have
ended. -/
def Polls (user : Environment E) (broker : Fin maxBrokers) (agent agent' : MQTTAgent E) : Prop :=
  ∃ w received, w.connection = agent.connections broker ∧
    receiveData user ⟨agent.contexts broker, w, []⟩ = some received ∧
    agent'.contexts broker = (invokePeriodic user received.2).1.context ∧
    agent'.connections broker = (invokePeriodic user received.2).1.world.connection ∧
    agent'.outputsOf broker =
      agent.outputsOf broker ++ (invokePeriodic user received.2).1.outputs ∧
    (HonestPool (agent'.outputsOf broker) → ∀ buffer ∈ received.2.context.txBufferList,
      buffer.elapsed (received.2.world.call user.getTicks).1 = true →
        buffer.timeoutEvent ∈ callbackEvents (invokePeriodic user received.2).1.outputs)

namespace MQTTAgent

/-- What is kept, told and taken up while connections are managed. -/
structure Manages (agent agent' : MQTTAgent E) : Prop where
  served : agent'.Served
  tells : agent.TellsTasks agent'
  frees : ∀ broker, Frees (agent.connections broker) (agent'.connections broker)

theorem Manages.trans {agent agent' agent'' : MQTTAgent E} (hfirst : agent.Manages agent')
    (hsecond : agent'.Manages agent'') : agent.Manages agent'' :=
  ⟨hsecond.served, hfirst.tells.trans hsecond.tells hsecond.frees,
    fun broker => (hfirst.frees broker).trans (hsecond.frees broker)⟩

end MQTTAgent

theorem Polls.congr {start finish : MQTTAgent E} (h : Polls user broker agent agent')
    (hstart : start.SameAt broker agent) (hfinish : agent'.SameAt broker finish) :
    Polls user broker start finish := by
  unfold Polls at h ⊢
  rw [hfinish.context, hfinish.connection, hfinish.outputsOf, ← hstart.context,
    ← hstart.connection, ← hstart.outputsOf]
  exact h

/-- One connection is managed. -/
theorem manage_connection_serves (user : Environment E) (h : agent.Served)
    (broker : Fin maxBrokers) :
    ∃ received, receiveData user (agent.session broker) = some received ∧
      agent.Manages (agent.store broker (invokePeriodic user received.2).1) ∧
      Polls user broker agent (agent.store broker (invokePeriodic user received.2).1) := by
  have hapart : (agent.session broker).world.connection.Apart := h.apart broker
  have hkept := (((linked_kept_by_managing user).and (answering_kept_by_managing user
    (agent.requestsOf (MQTTAgent.others broker)) (agent.outputsOf broker))).and
      (confined_kept_by_managing user)).and (tells_kept_by_managing user hapart)
  obtain ⟨received, hreceived, hbase, hmiddle⟩ := receive_data_session hkept (h.linked broker).base
    ⟨⟨⟨(h.linked broker).linked, h.answering.session broker⟩, h.confined broker⟩,
      tells_tasks_of_same rfl ⟨[], (List.append_nil _).symm⟩ rfl, fun _ hfree => hfree⟩
  obtain ⟨hlater, ⟨⟨hlinked, hanswering⟩, hconfined⟩, htells, hfrees⟩ :=
    invoke_periodic_session hkept hbase hmiddle
  obtain ⟨⟨⟨-, hanswering'⟩, hconfined'⟩, -, -⟩ := hmiddle
  refine ⟨received, hreceived, ⟨MQTTAgent.served_store h.linked
    h.answering.inStep h.apart h.confined ⟨hlater, hlinked⟩ hanswering
    (htells.apart hfrees hapart) hconfined, MQTTAgent.tells_store htells,
    MQTTAgent.frees_store hfrees⟩, ?_⟩
  obtain ⟨hcontext, hconnection, houtputs⟩ :=
    MQTTAgent.store_at broker (invokePeriodic user received.2).1 agent
  refine ⟨(agent.session broker).world, received, rfl, hreceived, hcontext, hconnection, houtputs,
    fun hhonest buffer hmem helapsed => ?_⟩
  obtain ⟨reports, hreports, hended⟩ := periodic_reports user hbase hconfined'
  rw [houtputs, hreports, ← List.append_assoc, honest_pool_append] at hhonest
  -- The handles on the Tx list are different because the connection holds them.
  have hnodup := (List.nodup_append.mp (hanswering'.inStep hhonest.1).1.places_nodup).1
  rw [hreports, callback_events_append, List.mem_append]
  exact Or.inr (hended hnodup buffer hmem helapsed)

/-- All connections of a list are managed, each of them once. -/
theorem manage_connections_serve (user : Environment E) {brokers : List (Fin maxBrokers)}
    (hnodup : brokers.Nodup) (state : MQTTAgent E × Bool × UInt32) (h : state.1.Served) :
    ∃ managed, brokers.foldlM (fun state broker => manageConnection user broker state) state =
        some managed ∧ state.1.Manages managed.1 ∧
      (∀ broker ∈ brokers, Polls user broker state.1 managed.1) ∧
      ∀ broker ∉ brokers, state.1.SameAt broker managed.1 := by
  induction brokers generalizing state with
  | nil =>
      exact ⟨state, rfl, ⟨h, .refl _, fun _ _ hfree => hfree⟩,
        fun _ habsurd => absurd habsurd List.not_mem_nil, fun broker _ => .refl broker _⟩
  | cons broker rest ih =>
      obtain ⟨hbroker, hrest⟩ := List.nodup_cons.mp hnodup
      obtain ⟨received, hreceived, hmanages, hpolls⟩ := manage_connection_serves user h broker
      obtain ⟨managed, hmanaged, hlater, hpolled, hsame⟩ := ih hrest
        (state.1.store broker (invokePeriodic user received.2).1,
          state.2.1 || decide (received.2.world.connection.xSocket ≠ socketsInvalidSocket),
          min (if received.1 then 0 else state.2.2) (invokePeriodic user received.2).2)
        hmanages.served
      have hother : ∀ other, other ≠ broker →
          state.1.SameAt other (state.1.store broker (invokePeriodic user received.2).1) :=
        fun other hne => MQTTAgent.same_at_store hne _ _
      refine ⟨managed, ?_, hmanages.trans hlater, fun other hmem => ?_, fun other hnot => ?_⟩
      · rw [List.foldlM_cons]
        unfold manageConnection at hmanaged ⊢
        simp only [hreceived, Option.bind_eq_bind, Option.bind_some]
        exact hmanaged
      · rcases List.mem_cons.mp hmem with rfl | hmem
        · exact hpolls.congr (.refl other _) (hsame other hbroker)
        · have hne : other ≠ broker := fun heq => hbroker (heq ▸ hmem)
          exact (hpolled other hmem).congr (hother other hne) (.refl other _)
      · obtain ⟨hne, hnot⟩ := not_or.mp (mt List.mem_cons.mpr hnot)
        exact (hother other hne).trans (hsame other hnot)

/-! ## Rounds -/

/-- That a command has been received tells nobody. -/
theorem tells_of_receive (h : (agent.receive data).TellsTasks agent') :
    agent.TellsTasks agent' := by
  obtain ⟨later, hlater, htold⟩ := h
  refine ⟨.received data :: later, ?_, fun broker => ?_⟩
  · rw [hlater]
    exact List.append_assoc _ _ _
  · obtain ⟨labels, hlabels, hended, hwaits⟩ := htold broker
    refine ⟨labels, hlabels, fun x request event hrequest hfind => ?_, hwaits⟩
    obtain ⟨hfree, hmem⟩ := hended x request event hrequest hfind
    exact ⟨hfree, List.mem_cons_of_mem _ hmem⟩

/-- The command of a round is processed. -/
theorem processed_serves (user : Environment E) (h : agent.Served)
    (hreceives : ReceivesApart agent received) :
    (agent.processed user received).Served ∧
      agent.TellsTasks (agent.processed user received) := by
  cases received with
  | none => exact ⟨h, .refl agent⟩
  | some command =>
      obtain ⟨hqueued, hfresh⟩ := hreceives command rfl
      have hlinked : (agent.receive command.xNotificationData).Linked :=
        fun broker => ⟨(h.linked broker).base, (h.linked broker).linked⟩
      obtain ⟨hlinked', hconfined⟩ := process_linked_confined user command
        (hlinked command.uxBrokerNumber) (h.confined command.uxBrokerNumber)
      have hanswering : Answering _ _ (processCommand user command _) :=
        (answering_received h.answering command.uxBrokerNumber hfresh).process hqueued
          (hlinked command.uxBrokerNumber).base
      have hprocesses := processes_command user command
        ((agent.receive command.xNotificationData).session command.uxBrokerNumber)
        (h.apart command.uxBrokerNumber)
      have hapart := hprocesses.apart (h.apart command.uxBrokerNumber)
        fun request hrequest => hfresh request hrequest command.uxBrokerNumber
      have hinStep : (agent.receive command.xNotificationData).InStep := h.answering.inStep
      exact ⟨MQTTAgent.served_store hlinked hinStep h.apart h.confined hlinked' hanswering hapart
        hconfined, tells_of_receive (MQTTAgent.tells_store hprocesses.tells)⟩

/-- In a round every task that waits is told of the first event that concerns it, while the command
is processed and while the connections are managed, and all connections are polled. -/
def RoundTells (user : Environment E) (agent : MQTTAgent E) (received : Option MQTTEventData) :
    Prop :=
  ∃ agent', agentStep user agent received = some agent' ∧
    agent.TellsTasks (agent.processed user received) ∧
    (agent.processed user received).TellsTasks agent' ∧
    ∀ broker, Polls user broker (agent.processed user received) agent'

/-- A round of the task tells the tasks that wait. -/
theorem round_tells (user : Environment E) (h : agent.Served)
    (hreceives : ReceivesApart agent received) :
    RoundTells user agent received ∧
      ∀ agent', agentStep user agent received = some agent' → agent'.Served := by
  obtain ⟨hserved, htells⟩ := processed_serves user h hreceives
  obtain ⟨managed, hmanaged, hmanages, hpolls, -⟩ := manage_connections_serve user
    (List.nodup_finRange maxBrokers) (agent.processed user received, false, portMaxDelay) hserved
  have hstep : agentStep user agent received = some managed.1 := by
    have hround : agentStep user agent received =
        (prvManageConnections user (agent.processed user received)).map Prod.fst := by
      cases received with
      | none => rfl
      | some command => rfl
    rw [hround]
    unfold prvManageConnections
    rw [hmanaged]
    rfl
  refine ⟨⟨managed.1, hstep, htells, hmanages.tells, fun broker => hpolls broker
    (List.mem_finRange broker)⟩, fun agent' hstep' => ?_⟩
  rw [hstep] at hstep'
  cases hstep'
  exact hmanages.served

/-- In every run of the MQTT task in which the packet identifiers in flight are different, the task
always returns to the queue. A request is received only while it is not open and answered only while
it is, and it has been answered as often as it has been received, or once less while it waits in a
connection. In every round the tasks that wait are told of the acknowledgment, the timeout or the
disconnect that ends their request. On a connection to which the pool hands out only buffers that it
does not hold, the identifiers of the waiting tasks are the packet identifiers of the buffers on the
Tx list. -/
theorem waiting_tasks_in_step (user : Environment E) (memory : Fin maxBrokers → MQTTContext)
    (environment : E) (events : List (Option MQTTEventData))
    (hapart : Throughout (agentStep user) ReceivesApart (.initial memory environment) events) :
    ∃ agent, run (agentStep user) events (.initial memory environment) = some agent ∧
      Safe [] (requestActions agent.outputs) ∧
      (∀ request ∈ agent.requestsOf (List.finRange maxBrokers),
        (requestActions agent.outputs).count (.acquire request) =
          (requestActions agent.outputs).count (.release request) + 1) ∧
      (∀ request ∉ agent.requestsOf (List.finRange maxBrokers),
        (requestActions agent.outputs).count (.acquire request) =
          (requestActions agent.outputs).count (.release request)) ∧
      Throughout (agentStep user) (RoundTells user) (.initial memory environment) events ∧
      ∀ broker, HonestPool (agent.outputsOf broker) →
        (agent.connections broker).waitingIdentifiers.Perm
          (txIdentifiers (agent.contexts broker)) := by
  have hstep : ∀ {agent agent' : MQTTAgent E} {received}, agent.Served →
      ReceivesApart agent received → agentStep user agent received = some agent' →
      agent'.Served := fun h hreceives hstep => (round_tells user h hreceives).2 _ hstep
  have hstart := MQTTAgent.served_initial memory environment
  obtain ⟨agent, hrun, hserved⟩ := run_of_throughout MQTTAgent.Served
    (fun received h => by
      obtain ⟨agent', hstep, -⟩ := h.linked.step user received
      exact ⟨agent', hstep⟩)
    hstep hstart hapart
  have hanswering := hserved.answering
  refine ⟨agent, hrun, hanswering.safe, fun request hopen => ?_, fun request hended => ?_,
    hapart.imp MQTTAgent.Served hstep (fun h hreceives => (round_tells user h hreceives).1) hstart,
    fun broker hhonest => (hanswering.inStep broker hhonest).2⟩
  · exact count_acquire_live hanswering.safe (hanswering.live.mem_iff.mpr hopen)
  · exact count_acquire_ended hanswering.safe (mt hanswering.live.mem_iff.mp hended)

/-- The bench with a broker that sends a CONNACK packet when it is read for the second time. -/
def slowEnvironment : Environment Nat :=
  { benchEnvironment true with
    tlsRecv := fun limit e =>
      if h : 100 ≤ e ∧ e < 200 ∧ 4 ≤ limit then (.bytes [0x20, 2, 0, 0] h.2.2, e + 100)
      else (.error 10, e + 100) }

/-- The task of a Connect waits for the CONNACK packet, and it is told in the round in which the
packet comes. -/
theorem waiting_tasks_in_step_connect :
    ∃ connected agent,
      run (agentStep slowEnvironment) (connectRounds.take 1) (.initial (fun _ => blankContext) 1) =
        some connected ∧
      (connected.connections ⟨0, max_brokers_pos⟩).waitingIdentifiers = [1] ∧
      requestActions connected.outputs = [.acquire (1, 1)] ∧
      RoundTells slowEnvironment connected none ∧
      run (agentStep slowEnvironment) connectRounds (.initial (fun _ => blankContext) 1) =
        some agent ∧
      (agent.connections ⟨0, max_brokers_pos⟩).waitingIdentifiers = [] ∧
      requestActions agent.outputs = [.acquire (1, 1), .release (1, 1)] ∧
      agent.outputs.getLast? = some (.notified 1 0x10005) ∧
      (agent.connections ⟨0, max_brokers_pos⟩).waitingIdentifiers.Perm
        (txIdentifiers (agent.contexts ⟨0, max_brokers_pos⟩)) := by
  have hapart : Throughout (agentStep slowEnvironment) ReceivesApart
      (.initial (fun _ => blankContext) 1) connectRounds := by
    intro connected _
    refine ⟨?_, fun last _ => ⟨?_, trivial⟩⟩
    · intro command hcommand
      cases hcommand
      refine ⟨rfl, fun request _ broker => ?_⟩
      show request.2 ∉ MQTTBrokerConnection.initial.requests.map Prod.snd
      rw [requests_initial]
      exact List.not_mem_nil
    · intro command hnone
      cases hnone
  -- The task waits after the first round and is told in the second one.
  obtain ⟨agent, hrun, -, -, -, htells, hinStep⟩ := waiting_tasks_in_step slowEnvironment
    (fun _ => blankContext) 1 connectRounds hapart
  obtain ⟨connected, hconnected, hlast⟩ := Option.bind_eq_some_iff.mp hrun
  obtain ⟨last, hnext, -⟩ := Option.bind_eq_some_iff.mp hlast
  have hfirst : run (agentStep slowEnvironment) (connectRounds.take 1)
      (.initial (fun _ => blankContext) 1) = some connected := by
    show (agentStep slowEnvironment _ _).bind some = some connected
    rw [hconnected]
    rfl
  have hbetween : (run (agentStep slowEnvironment) (connectRounds.take 1)
      (.initial (fun _ => blankContext) 1)).map (fun agent =>
        ((agent.connections ⟨0, max_brokers_pos⟩).waitingIdentifiers,
          requestActions agent.outputs)) = some ([1], [.acquire (1, 1)]) := rfl
  have hend : (run (agentStep slowEnvironment) connectRounds
      (.initial (fun _ => blankContext) 1)).map (fun agent =>
        ((agent.connections ⟨0, max_brokers_pos⟩).waitingIdentifiers,
          requestActions agent.outputs, agent.outputs.getLast?,
          decide (HonestPool (agent.outputsOf ⟨0, max_brokers_pos⟩)))) =
      some ([], [.acquire (1, 1), .release (1, 1)], some (.notified 1 0x10005), true) := rfl
  rw [hfirst] at hbetween
  rw [hrun] at hend
  simp only [Option.map_some, Option.some.injEq, Prod.mk.injEq] at hbetween hend
  obtain ⟨hwaiting, hopen⟩ := hbetween
  obtain ⟨hanswered, hactions, htold, hhonest⟩ := hend
  exact ⟨connected, agent, hfirst, hwaiting, hopen, ((htells connected hconnected).2 last hnext).1,
    hrun, hanswered, hactions, htold, hinStep _ (of_decide_eq_true hhonest)⟩

end TivaAws.Agent
