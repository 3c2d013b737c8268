import TivaAws.Mqtt.KeepAlive

/-!
# When a request times out

`MQTT_Periodic` brings the timer of every buffer on the Tx list up to date. The recorded tick count
and the remaining ticks keep their sum, the tick count at which the request is due, however many
calls there are in between. The first call that is due ends the request, and none before it. The
answer of a call is no more than what remains of any timer.
-/

namespace TivaAws.Mqtt

open Session Labelled

variable {W : Type} {user : MQTTInitParams W} {op : Op} {c c' : MQTTContext}
  {labels : List MQTTOutput} {since : List (Op × List MQTTOutput)} {s : Session W} {now : UInt64}

/-! ## The timer of a buffer -/

/-- The time of the buffer has elapsed. -/
def MQTTBuffer.elapsed (now : UInt64) (buffer : MQTTBuffer) : Bool :=
  (prvIsTimeElapsed buffer.bufferState.recordedTickCount now buffer.bufferState.timeoutTicks).1

/-- The buffer with its timer brought up to date. -/
def MQTTBuffer.ticked (now : UInt64) (buffer : MQTTBuffer) : MQTTBuffer :=
  let time := prvIsTimeElapsed buffer.bufferState.recordedTickCount now
    buffer.bufferState.timeoutTicks
  buffer.stamp time.2.1 time.2.2

/-- The tick count at which the request in a buffer is due. -/
def MQTTBuffer.due (buffer : MQTTBuffer) : Nat :=
  buffer.bufferState.recordedTickCount.toNat + buffer.bufferState.timeoutTicks.toNat

/-- The event that reports the timeout of a request. A CONNECT ends with the connection. -/
def MQTTBuffer.timeoutEvent (buffer : MQTTBuffer) : MQTTEvent :=
  if buffer.controlByte = controlCONNECT ||| flagsCONNECT then .clientDisconnected .connectTimeout
  else .timeout buffer.bufferState.packetIdentifier

@[simp] theorem ticked_handle (now : UInt64) (buffer : MQTTBuffer) :
    (buffer.ticked now).handle = buffer.handle := rfl

/-- The clock has moved on by less than `2 ^ 32` ticks. -/
def TicksOn (earlier later : UInt64) : Prop :=
  earlier ≤ later ∧ later.toNat < earlier.toNat + 2 ^ 32

theorem TicksOn.ne_zero {earlier later : UInt64} (h : TicksOn earlier later)
    (hearlier : earlier ≠ 0) : later ≠ 0 := by
  intro hzero
  rw [hzero] at h
  have hle : earlier.toNat ≤ 0 := UInt64.le_iff_toNat_le.mp h.1
  exact hearlier (UInt64.toNat_inj.mp (Nat.le_zero.mp hle))

/-- The time has elapsed exactly if the request is due. -/
theorem elapsed_iff {buffer : MQTTBuffer} (hrecorded : buffer.bufferState.recordedTickCount ≠ 0)
    (hon : TicksOn buffer.bufferState.recordedTickCount now) :
    buffer.elapsed now = true ↔ buffer.due ≤ now.toNat := by
  obtain ⟨hle, hgap⟩ := hon
  have hle' := UInt64.le_iff_toNat_le.mp hle
  unfold MQTTBuffer.elapsed MQTTBuffer.due prvIsTimeElapsed
  rw [if_neg hrecorded]
  have hticks : (now - buffer.bufferState.recordedTickCount).toUInt32.toNat =
      now.toNat - buffer.bufferState.recordedTickCount.toNat := by
    rw [UInt64.toNat_toUInt32, UInt64.toNat_sub_of_le _ _ hle]
    exact Nat.mod_eq_of_lt (by omega)
  have hcompare : (now - buffer.bufferState.recordedTickCount).toUInt32 ≥
      buffer.bufferState.timeoutTicks ↔
      buffer.bufferState.recordedTickCount.toNat + buffer.bufferState.timeoutTicks.toNat ≤
        now.toNat := by
    rw [ge_iff_le, UInt32.le_iff_toNat_le, hticks]
    omega
  rw [← hcompare]
  simp only
  by_cases hdue : (now - buffer.bufferState.recordedTickCount).toUInt32 ≥
      buffer.bufferState.timeoutTicks
  · rw [if_pos hdue]
    exact ⟨fun _ => hdue, fun _ => rfl⟩
  · rw [if_neg hdue]
    exact ⟨fun h => (by cases h), fun h => absurd h hdue⟩

/-- As long as it is not due, a request stays due at the same tick count. -/
theorem ticked_due {buffer : MQTTBuffer} (hrecorded : buffer.bufferState.recordedTickCount ≠ 0)
    (hon : TicksOn buffer.bufferState.recordedTickCount now) (hdue : now.toNat < buffer.due) :
    (buffer.ticked now).bufferState.recordedTickCount = now ∧
      (buffer.ticked now).due = buffer.due := by
  have helapsed : buffer.elapsed now = false := by
    rw [← Bool.not_eq_true, elapsed_iff hrecorded hon]
    omega
  have htime : prvIsTimeElapsed buffer.bufferState.recordedTickCount now
      buffer.bufferState.timeoutTicks = (false, (buffer.ticked now).bufferState.recordedTickCount,
        (buffer.ticked now).bufferState.timeoutTicks) := Prod.ext helapsed rfl
  obtain ⟨hnow, hsum, -⟩ := time_not_elapsed htime hrecorded hon.1 hon.2
  refine ⟨hnow, ?_⟩
  unfold MQTTBuffer.due
  rw [hnow]
  exact hsum

/-! ## The loop over the Tx list -/

/-- The smaller of two tick counts, as `mqttMIN` takes it. -/
theorem min_ticks_le (first second : UInt32) :
    min first second ≤ first ∧ min first second ≤ second := by
  rw [UInt32.min_def]
  by_cases h : first ≤ second
  · rw [if_pos h]
    exact ⟨UInt32.le_refl first, h⟩
  · rw [if_neg h]
    exact ⟨UInt32.le_of_lt (UInt32.not_le.mp h), UInt32.le_refl second⟩

/-- The timer of a buffer in the middle of the list is stored there. -/
theorem store_ticked_middle (now : UInt64) {front rest : List MQTTBuffer} {buffer : MQTTBuffer}
    (hlist : c.txBufferList = front ++ buffer :: rest)
    (hdistinct : (c.txBufferList.map MQTTBuffer.handle).Nodup) :
    (storeTxBuffer (buffer.ticked now) c).txBufferList = front ++ buffer.ticked now :: rest := by
  rw [hlist, List.map_append, List.map_cons] at hdistinct
  obtain ⟨-, hback, hfront⟩ := List.nodup_append.mp hdistinct
  have hsame : ∀ others : List MQTTBuffer, (∀ other ∈ others, other.handle ≠ buffer.handle) →
      others.map (fun other =>
        if other.handle = (buffer.ticked now).handle then buffer.ticked now else other) =
          others :=
    fun others hne =>
      (List.map_congr_left fun other hmem => if_neg (hne other hmem)).trans (List.map_id others)
  unfold storeTxBuffer
  simp only
  rw [hlist, List.map_append, List.map_cons, if_pos (ticked_handle now buffer).symm, hsame front,
    hsame rest]
  · exact fun other hmem heq => (List.nodup_cons.mp hback).1 (heq ▸ List.mem_map_of_mem hmem)
  · exact fun other hmem => hfront _ (List.mem_map_of_mem hmem) _ List.mem_cons_self

theorem not_returned_reported (user : MQTTInitParams W) (event : MQTTEvent) (result : Bool)
    (handle : MQTTBufferHandle) : .returned handle ∉ user.reported event result := by
  unfold MQTTInitParams.reported
  split_ifs
  · simp
  · simp

theorem not_returned_clock (user : MQTTInitParams W) (t : UInt64) (handle : MQTTBufferHandle) :
    .returned handle ∉ user.clock t := by
  unfold MQTTInitParams.clock
  split_ifs
  · simp
  · simp

theorem not_returned_transmitted (user : MQTTInitParams W) (data : List UInt8) (count : Nat)
    (t : UInt64) (handle : MQTTBufferHandle) :
    .returned handle ∉ user.transmitted data count t := by
  unfold MQTTInitParams.transmitted
  split_ifs
  · simpa using not_returned_clock user t handle
  · simp

/-- Reporting a timeout unlinks the buffer and leaves the state of the connection alone. -/
theorem report_timeout_spec (user : MQTTInitParams W) (s : Session W) {buffer : MQTTBuffer}
    {front rest : List MQTTBuffer} (hlist : s.context.txBufferList = front ++ buffer :: rest)
    (hdistinct : (s.context.txBufferList.map MQTTBuffer.handle).Nodup) :
    ∃ result, Calls user s (user.reported (.timeout buffer.bufferState.packetIdentifier) result ++
        [.returned buffer.handle]) (reportTimeout user buffer s) ∧
      (reportTimeout user buffer s).context.txBufferList = front ++ rest ∧
      (reportTimeout user buffer s).context.connectionState = s.context.connectionState := by
  unfold reportTimeout
  simp only
  generalize hsettle : (s.update fun context =>
    if buffer.controlByte = controlSUBSCRIBE ||| flagsSUBSCRIBE then
      { context with
        subscriptionManager := prvRemoveSubscriptionForSubscribeOrUnsubscribeBuffer
          buffer context.subscriptionManager }
    else context) = settled
  have hcalls : Calls user s [] settled := by
    subst hsettle
    exact (Calls.refl s).update _
  have hkept : settled.context.txBufferList = s.context.txBufferList ∧
      settled.context.connectionState = s.context.connectionState := by
    subst hsettle
    rw [update_context]
    split_ifs
    · exact ⟨rfl, rfl⟩
    · exact ⟨rfl, rfl⟩
  obtain ⟨hevent, hcontext⟩ := invoke_callback_spec user
    (.timeout buffer.bufferState.packetIdentifier) (by simp) settled
  refine ⟨_, hcalls.trans (hevent.trans (calls_return_buffer buffer.handle _)), ?_, ?_⟩
  · rw [return_buffer_context, hcontext, unlink_middle (hkept.1.trans hlist)
      (by rw [hkept.1]; exact hdistinct)]
  · rw [return_buffer_context, hcontext]
    exact hkept.2

/-- What the loop has done with buffers that are not CONNECT: those whose time has elapsed are
reported and returned, and the others stay with their timers brought up to date. -/
structure Looped (user : MQTTInitParams W) (now : UInt64) (front rest : List MQTTBuffer)
    (next : UInt32) (s : Session W) (labels : List MQTTOutput) (result : Session W × UInt32) :
    Prop where
  calls : Calls user s labels result.1
  txBufferList : result.1.context.txBufferList =
    front ++ (rest.filter fun buffer => !buffer.elapsed now).map (MQTTBuffer.ticked now)
  state : result.1.context.connectionState = s.context.connectionState
  reported : ∀ buffer ∈ rest, buffer.elapsed now = true →
    .event (.timeout buffer.bufferState.packetIdentifier) ∈ labels ∧
      .returned buffer.handle ∈ labels
  returned : ∀ handle, .returned handle ∈ labels →
    ∃ buffer ∈ rest, buffer.elapsed now = true ∧ buffer.handle = handle
  next_le : result.2 ≤ next
  remaining : ∀ buffer ∈ rest, buffer.elapsed now = false →
    result.2 ≤ (buffer.ticked now).bufferState.timeoutTicks

/-- One iteration of the loop, at a buffer in the middle of the list. -/
theorem tx_loop_iteration (user : MQTTInitParams W) (now : UInt64)
    {front rest : List MQTTBuffer} {buffer : MQTTBuffer} (handles : List MQTTBufferHandle)
    (next : UInt32) {s : Session W} (hlist : s.context.txBufferList = front ++ buffer :: rest)
    (hdistinct : (s.context.txBufferList.map MQTTBuffer.handle).Nodup) :
    periodicTxLoop user now (buffer.handle :: handles) next s =
      let ticked := s.update (storeTxBuffer (buffer.ticked now))
      if buffer.elapsed now then
        if buffer.controlByte = controlCONNECT ||| flagsCONNECT then
          (resetAndReport user .connectTimeout ticked, next)
        else
          periodicTxLoop user now handles next (reportTimeout user (buffer.ticked now) ticked)
      else
        periodicTxLoop user now handles (min next (buffer.ticked now).bufferState.timeoutTicks)
          ticked := by
  have hfind : (s.context.txBufferList.find? fun other => other.handle == buffer.handle) =
      some buffer := by
    have hfront : ∀ other ∈ front, ¬ ((other.handle == buffer.handle) = true) := by
      intro other hmem heq
      rw [hlist, List.map_append, List.map_cons] at hdistinct
      exact (List.nodup_append.mp hdistinct).2.2 _ (List.mem_map_of_mem hmem) _
        List.mem_cons_self (beq_iff_eq.mp heq)
    rw [hlist, List.find?_append, List.find?_eq_none.mpr hfront, Option.none_or]
    exact List.find?_cons_of_pos (beq_self_eq_true buffer.handle)
  rw [periodicTxLoop, hfind]
  rfl

theorem tx_loop_spec (user : MQTTInitParams W) (now : UInt64) (front rest : List MQTTBuffer)
    (next : UInt32) (s : Session W) (hlist : s.context.txBufferList = front ++ rest)
    (hdistinct : (s.context.txBufferList.map MQTTBuffer.handle).Nodup)
    (hplain : ∀ buffer ∈ rest, buffer.controlByte ≠ controlCONNECT ||| flagsCONNECT) :
    ∃ labels, Looped user now front rest next s labels
      (periodicTxLoop user now (rest.map MQTTBuffer.handle) next s) := by
  induction rest generalizing front next s with
  | nil =>
      refine ⟨[], .refl s, hlist, rfl, ?_, ?_, UInt32.le_refl next, ?_⟩
      · exact fun buffer hmem => absurd hmem List.not_mem_nil
      · exact fun handle hmem => absurd hmem List.not_mem_nil
      · exact fun buffer hmem => absurd hmem List.not_mem_nil
  | cons buffer rest ih =>
      have hrest : ∀ other ∈ rest, other.controlByte ≠ controlCONNECT ||| flagsCONNECT :=
        fun other hmem => hplain other (List.mem_cons_of_mem _ hmem)
      have hstored := store_ticked_middle now hlist hdistinct
      have hhandles : ((s.update (storeTxBuffer (buffer.ticked now))).context.txBufferList.map
          MQTTBuffer.handle) = s.context.txBufferList.map MQTTBuffer.handle := by
        rw [update_context, hstored, hlist]
        simp
      rw [List.map_cons, tx_loop_iteration user now _ next hlist hdistinct]
      simp only
      -- A request whose time is up leaves the list, and the loop goes on behind it; any other one
      -- stays in front with fewer ticks.
      by_cases helapsed : buffer.elapsed now = true
      · rw [if_pos helapsed, if_neg (hplain buffer List.mem_cons_self)]
        obtain ⟨result, hreport, hreported, hstate⟩ := report_timeout_spec user
          (s.update (storeTxBuffer (buffer.ticked now))) hstored (by rw [hhandles]; exact hdistinct)
        obtain ⟨labels, hlooped⟩ := ih front next _ hreported (by
          rw [hreported]
          rw [hlist] at hdistinct
          exact hdistinct.sublist
            (((List.sublist_cons_self buffer rest).append_left front).map MQTTBuffer.handle)) hrest
        refine ⟨_, hreport.of_update.trans hlooped.calls, ?_, hlooped.state.trans hstate, ?_, ?_,
          hlooped.next_le, ?_⟩
        · rw [hlooped.txBufferList, List.filter_cons_of_neg (by simp [helapsed])]
        · intro other hmem hother
          rcases List.mem_cons.mp hmem with rfl | hmem
          · refine ⟨List.mem_append_left _ (List.mem_append_left _ ?_),
              List.mem_append_left _ (List.mem_append_right _ ?_)⟩
            · exact List.mem_cons_self
            · exact List.mem_singleton_self _
          · exact ⟨List.mem_append_right _ (hlooped.reported other hmem hother).1,
              List.mem_append_right _ (hlooped.reported other hmem hother).2⟩
        · intro handle hmem
          rcases List.mem_append.mp hmem with hmem | hmem
          · rcases List.mem_append.mp hmem with hmem | hmem
            · exact absurd hmem (not_returned_reported user _ result handle)
            · cases List.mem_singleton.mp hmem
              exact ⟨buffer, List.mem_cons_self, helapsed, rfl⟩
          · obtain ⟨other, hother, heq⟩ := hlooped.returned handle hmem
            exact ⟨other, List.mem_cons_of_mem _ hother, heq⟩
        · intro other hmem hother
          rcases List.mem_cons.mp hmem with rfl | hmem
          · exact absurd (helapsed.symm.trans hother) Bool.noConfusion
          · exact hlooped.remaining other hmem hother
      · rw [if_neg helapsed]
        obtain ⟨labels, hlooped⟩ := ih (front ++ [buffer.ticked now])
          (min next (buffer.ticked now).bufferState.timeoutTicks)
          (s.update (storeTxBuffer (buffer.ticked now)))
          (by rw [List.append_assoc]; exact hstored) (by rw [hhandles]; exact hdistinct) hrest
        refine ⟨labels, hlooped.calls.of_update, ?_, hlooped.state, ?_, ?_, ?_, ?_⟩
        · rw [hlooped.txBufferList, List.filter_cons_of_pos (by simp [helapsed]), List.map_cons,
            List.append_assoc]
          rfl
        · intro other hmem hother
          rcases List.mem_cons.mp hmem with rfl | hmem
          · exact absurd hother helapsed
          · exact hlooped.reported other hmem hother
        · intro handle hmem
          obtain ⟨other, hother, heq⟩ := hlooped.returned handle hmem
          exact ⟨other, List.mem_cons_of_mem _ hother, heq⟩
        · exact UInt32.le_trans hlooped.next_le (min_ticks_le _ _).1
        · intro other hmem hother
          rcases List.mem_cons.mp hmem with rfl | hmem
          · exact UInt32.le_trans hlooped.next_le (min_ticks_le _ _).2
          · exact hlooped.remaining other hmem hother

/-- What a call of `MQTT_Periodic` has done with every request: it has ended those whose time has
elapsed, the others wait on, and the answer is no more than what remains for them. -/
structure Polled (user : MQTTInitParams W) (now : UInt64) (s : Session W)
    (labels : List MQTTOutput) (result : Session W × UInt32) : Prop where
  calls : Calls user s labels result.1
  remaining : ∀ buffer ∈ result.1.context.txBufferList,
    result.2 ≤ buffer.bufferState.timeoutTicks
  ended : ∀ buffer ∈ s.context.txBufferList, buffer.elapsed now = true →
    .event buffer.timeoutEvent ∈ labels ∧ .returned buffer.handle ∈ labels ∧
      buffer.handle ∉ result.1.context.txBufferList.map MQTTBuffer.handle
  waits : ∀ buffer ∈ s.context.txBufferList, buffer.elapsed now = false →
    .returned buffer.handle ∉ labels ∧ buffer.ticked now ∈ result.1.context.txBufferList

/-- The loop over a list without CONNECT. -/
theorem Looped.polled {labels : List MQTTOutput} {next : UInt32} {result : Session W × UInt32}
    (h : Looped user now [] s.context.txBufferList next s labels result)
    (hdistinct : (s.context.txBufferList.map MQTTBuffer.handle).Nodup)
    (hplain : ∀ buffer ∈ s.context.txBufferList,
      buffer.controlByte ≠ controlCONNECT ||| flagsCONNECT) :
    Polled user now s labels result := by
  have hunique := List.inj_on_of_nodup_map hdistinct
  have hlist : ∀ buffer, buffer ∈ result.1.context.txBufferList ↔
      ∃ other ∈ s.context.txBufferList, other.elapsed now = false ∧
        other.ticked now = buffer := by
    intro buffer
    rw [h.txBufferList]
    simp [and_assoc]
  refine ⟨h.calls, ?_, ?_, ?_⟩
  · intro buffer hmem
    obtain ⟨other, hother, hwaits, rfl⟩ := (hlist buffer).mp hmem
    exact h.remaining other hother hwaits
  · intro buffer hmem helapsed
    obtain ⟨hevent, hreturned⟩ := h.reported buffer hmem helapsed
    refine ⟨?_, hreturned, ?_⟩
    · unfold MQTTBuffer.timeoutEvent
      rw [if_neg (hplain buffer hmem)]
      exact hevent
    · intro hhandle
      obtain ⟨left, hleft, heq⟩ := List.mem_map.mp hhandle
      obtain ⟨other, hother, hwaits, rfl⟩ := (hlist left).mp hleft
      rw [hunique hother hmem heq, helapsed] at hwaits
      cases hwaits
  · intro buffer hmem hwaits
    refine ⟨?_, (hlist _).mpr ⟨buffer, hmem, hwaits, rfl⟩⟩
    intro hreturned
    obtain ⟨other, hother, helapsed, heq⟩ := h.returned buffer.handle hreturned
    rw [hunique hother hmem heq, hwaits] at helapsed
    cases helapsed

/-- The loop over a list with CONNECT alone. -/
theorem tx_loop_connect (user : MQTTInitParams W) (now : UInt64) (next : UInt32) {s : Session W}
    {connect : MQTTBuffer} (hlist : s.context.txBufferList = [connect])
    (hconnect : connect.controlByte = controlCONNECT ||| flagsCONNECT) :
    ∃ labels, Polled user now s labels (periodicTxLoop user now [connect.handle] next s) := by
  have halone : ∀ buffer ∈ s.context.txBufferList, buffer = connect := by
    intro buffer hmem
    rw [hlist] at hmem
    exact List.mem_singleton.mp hmem
  have hdistinct : (s.context.txBufferList.map MQTTBuffer.handle).Nodup := by
    rw [hlist]
    exact List.nodup_singleton _
  rw [← List.nil_append [connect]] at hlist
  have hstored := store_ticked_middle now hlist hdistinct
  rw [tx_loop_iteration user now [] next hlist hdistinct]
  simp only
  rw [if_pos hconnect]
  by_cases helapsed : connect.elapsed now = true
  · rw [if_pos helapsed]
    obtain ⟨result, hcalls, hcontext⟩ := reset_and_report_spec user .connectTimeout
      (s.update (storeTxBuffer (connect.ticked now)))
    refine ⟨_, hcalls.of_update, ?_, ?_, ?_⟩
    · intro buffer hmem
      rw [hcontext] at hmem
      exact absurd hmem List.not_mem_nil
    · intro buffer hmem _
      rw [halone buffer hmem]
      refine ⟨List.mem_append_right _ ?_, List.mem_append_left _ (List.mem_append_left _ ?_), ?_⟩
      · unfold MQTTBuffer.timeoutEvent
        rw [if_pos hconnect]
        exact List.mem_cons_self
      · rw [update_context, hstored]
        exact List.mem_cons_self
      · rw [hcontext]
        exact List.not_mem_nil
    · intro buffer hmem hwaits
      rw [halone buffer hmem, helapsed] at hwaits
      cases hwaits
  · rw [if_neg helapsed]
    refine ⟨[], (Calls.refl s).update _, ?_, ?_, ?_⟩
    · intro buffer hmem
      rw [periodicTxLoop, update_context, hstored] at hmem
      rw [List.mem_singleton.mp hmem]
      exact (min_ticks_le _ _).2
    · intro buffer hmem hended
      rw [halone buffer hmem] at hended
      exact absurd hended helapsed
    · intro buffer hmem _
      rw [halone buffer hmem, periodicTxLoop, update_context, hstored]
      exact ⟨List.not_mem_nil, List.mem_cons_self⟩

theorem tx_loop_polled (user : MQTTInitParams W) (now : UInt64) (next : UInt32) (s : Session W)
    (hreleased : ReleasedWhenDisconnected s.context) (hconfined : ConnectConfined s.context)
    (hdistinct : (s.context.txBufferList.map MQTTBuffer.handle).Nodup) :
    ∃ labels, Polled user now s labels
      (periodicTxLoop user now (s.context.txBufferList.map MQTTBuffer.handle) next s) := by
  by_cases hplain : ∀ buffer ∈ s.context.txBufferList,
      buffer.controlByte ≠ controlCONNECT ||| flagsCONNECT
  · obtain ⟨labels, hlooped⟩ := tx_loop_spec user now [] s.context.txBufferList next s rfl hdistinct
      hplain
    exact ⟨labels, hlooped.polled hdistinct hplain⟩
  · simp only [not_forall, not_not] at hplain
    obtain ⟨connect, hmem, hconnect⟩ := hplain
    have halone : s.context.txBufferList = [connect] := by
      cases hstate : s.context.connectionState with
      | notConnected =>
          rw [(hreleased hstate).txBufferList] at hmem
          exact absurd hmem List.not_mem_nil
      | connectionInProgress =>
          have hlength := hconfined.inProgress hstate
          cases hlist : s.context.txBufferList with
          | nil =>
              rw [hlist] at hmem
              exact absurd hmem List.not_mem_nil
          | cons first rest =>
              rw [hlist, List.length_cons] at hlength
              have hrest : rest = [] := List.length_eq_zero_iff.mp (by omega)
              rw [hlist, hrest] at hmem
              rw [hrest, List.mem_singleton.mp hmem]
      | connected =>
          exact absurd ((is_connect_iff connect).mpr hconnect) (hconfined.connected hstate _ hmem)
    rw [halone]
    exact tx_loop_connect user now next halone hconnect

/-! ## A call of MQTT_Periodic -/

/-- The keep-alive part of `MQTT_Periodic` leaves the Tx list alone. -/
theorem keep_alive_elapsed_list (user : MQTTInitParams W) (s : Session W) :
    (keepAliveElapsed user s).context.txBufferList = s.context.txBufferList ∧
      (keepAliveElapsed user s).context.connectionState = s.context.connectionState ∧
      ∃ labels, Calls user s labels (keepAliveElapsed user s) ∧
        ∀ handle, .returned handle ∉ labels := by
  unfold keepAliveElapsed
  by_cases hwaiting : s.context.waitingForPingResp = true
  · rw [if_pos hwaiting]
    obtain ⟨hevent, hcontext⟩ := invoke_callback_spec user .pingTimeout (by simp) s
    refine ⟨?_, ?_, _, hevent.update _, not_returned_reported user _ _⟩
    · rw [update_context, hcontext]
    · rw [update_context, hcontext]
  · rw [if_neg hwaiting]
    obtain ⟨count, t, hsend, hcontext, -⟩ := send_data_spec user pingReqPacket s
    have hkept : (prvSendData user pingReqPacket s).2.context.txBufferList =
        s.context.txBufferList ∧ (prvSendData user pingReqPacket s).2.context.connectionState =
          s.context.connectionState := by
      rw [hcontext]
      split_ifs
      · exact ⟨rfl, rfl⟩
      · exact ⟨rfl, rfl⟩
    simp only
    generalize prvSendData user pingReqPacket s = sent at hsend hkept ⊢
    by_cases hcode : sent.1 = .success
    · rw [if_pos hcode]
      obtain ⟨hnow, hnowContext⟩ := get_current_tick_count_spec user sent.2
      refine ⟨?_, ?_, _, (hsend.trans hnow).update _, ?_⟩
      · rw [update_context, hnowContext]
        exact hkept.1
      · rw [update_context, hnowContext]
        exact hkept.2
      · intro handle hmem
        rcases List.mem_append.mp hmem with hmem | hmem
        · exact not_returned_transmitted user _ count t handle hmem
        · exact not_returned_clock user _ handle hmem
    · rw [if_neg hcode]
      exact ⟨hkept.1, hkept.2, _, hsend, not_returned_transmitted user _ count t⟩

/-- What a call of `MQTT_Periodic` does after its loop. -/
theorem periodic_after_loop (user : MQTTInitParams W) (now : UInt64) (s : Session W) :
    let looped := periodicTxLoop user now (s.context.txBufferList.map MQTTBuffer.handle)
      (UInt32.ofNat (2 ^ 32 - 1)) s
    let answer := mqttPeriodic user now s
    answer.1.context.txBufferList = looped.1.context.txBufferList ∧
      answer.1.context.connectionState = looped.1.context.connectionState ∧
      answer.2 ≤ looped.2 ∧
      (answer.1.context.connectionState = .connected →
        answer.2 ≤ answer.1.context.nextPeriodicInvokeTicks) ∧
      ∃ labels, Calls user looped.1 labels answer.1 ∧ ∀ handle, .returned handle ∉ labels := by
  unfold mqttPeriodic
  simp only
  generalize periodicTxLoop user now (s.context.txBufferList.map MQTTBuffer.handle)
    (UInt32.ofNat (2 ^ 32 - 1)) s = looped
  by_cases hopen : looped.1.context.connectionState = .connected
  · rw [if_pos hopen]
    generalize hupdated : looped.1.update (fun context =>
      { context with
        lastSentMessageTimestamp := (prvIsTimeElapsed looped.1.context.lastSentMessageTimestamp now
          looped.1.context.nextPeriodicInvokeTicks).2.1
        nextPeriodicInvokeTicks := (prvIsTimeElapsed looped.1.context.lastSentMessageTimestamp now
          looped.1.context.nextPeriodicInvokeTicks).2.2 }) = updated
    have hkept : updated.context.txBufferList = looped.1.context.txBufferList ∧
        updated.context.connectionState = looped.1.context.connectionState := by
      subst hupdated
      exact ⟨rfl, rfl⟩
    have hcalls : Calls user looped.1 [] updated := by
      subst hupdated
      exact (Calls.refl looped.1).update _
    split_ifs with helapsed
    · obtain ⟨hlist, hstate, labels, hmore, hquiet⟩ := keep_alive_elapsed_list user updated
      exact ⟨hlist.trans hkept.1, hstate.trans hkept.2, (min_ticks_le _ _).1,
        fun _ => (min_ticks_le _ _).2,
        labels, hcalls.trans hmore, hquiet⟩
    · exact ⟨hkept.1, hkept.2, (min_ticks_le _ _).1,
        fun _ => (min_ticks_le _ _).2, [], hcalls,
        fun _ hmem => absurd hmem List.not_mem_nil⟩
  · rw [if_neg hopen]
    exact ⟨rfl, rfl, UInt32.le_refl _, fun h => absurd h hopen, [], .refl _,
      fun _ hmem => absurd hmem List.not_mem_nil⟩

theorem periodic_polled (user : MQTTInitParams W) (now : UInt64) (s : Session W)
    (hreleased : ReleasedWhenDisconnected s.context) (hconfined : ConnectConfined s.context)
    (hdistinct : (s.context.txBufferList.map MQTTBuffer.handle).Nodup) :
    ∃ labels, Polled user now s labels (mqttPeriodic user now s) := by
  obtain ⟨labels, hpolled⟩ := tx_loop_polled user now (UInt32.ofNat (2 ^ 32 - 1)) s hreleased
    hconfined hdistinct
  obtain ⟨hlist, -, hle, -, more, hmore, hquiet⟩ := periodic_after_loop user now s
  refine ⟨labels ++ more, hpolled.calls.trans hmore, ?_, ?_, ?_⟩
  · intro buffer hmem
    rw [hlist] at hmem
    exact UInt32.le_trans hle (hpolled.remaining buffer hmem)
  · intro buffer hmem helapsed
    obtain ⟨hevent, hreturned, hgone⟩ := hpolled.ended buffer hmem helapsed
    rw [hlist]
    exact ⟨List.mem_append_left _ hevent, List.mem_append_left _ hreturned, hgone⟩
  · intro buffer hmem hwaits
    obtain ⟨hkept, hticked⟩ := hpolled.waits buffer hmem hwaits
    rw [hlist]
    refine ⟨fun hreturned => ?_, hticked⟩
    rcases List.mem_append.mp hreturned with hreturned | hreturned
    · exact hkept hreturned
    · exact hquiet _ hreturned

/-! ## Other operations -/

/-- A buffer stays on the list when another one is unlinked. -/
theorem mem_unlink_of_ne {buffer : MQTTBuffer} {handle : MQTTBufferHandle}
    (hmem : buffer ∈ c.txBufferList) (hne : buffer.handle ≠ handle) :
    buffer ∈ (c.unlink handle).txBufferList :=
  (List.mem_eraseP_of_neg (p := fun other : MQTTBuffer => other.handle == handle)
    fun heq => hne (beq_iff_eq.mp heq)).mpr hmem

theorem returned_of_mem {buffer : MQTTBuffer} (hmem : buffer ∈ c.txBufferList) :
    .returned buffer.handle ∈ c.returns :=
  List.mem_append_left _ (List.mem_map_of_mem hmem)

/-- An operation other than `MQTT_Periodic` leaves a buffer as it is unless it returns it. -/
theorem Transition.keeps_waiting (h : Transition user op c labels c')
    (hop : ∀ now, ¬ op.Polls now) {buffer : MQTTBuffer} (hmem : buffer ∈ c.txBufferList)
    (hkept : .returned buffer.handle ∉ labels) : buffer ∈ c'.txBufferList := by
  cases h with
  | quiet => exact hmem
  | configure => exact hmem
  | connect => exact List.mem_cons_of_mem _ hmem
  | request => exact List.mem_cons_of_mem _ hmem
  | transient =>
      split_ifs
      · exact hmem
      · exact hmem
  | send =>
      split_ifs
      · exact hmem
      · exact hmem
  | ping now t t' hpolls => exact absurd hpolls (hop now)
  | pong => exact hmem
  | pingTimedOut now result hpolls => exact absurd hpolls (hop now)
  | elapse now hpolls => exact absurd hpolls (hop now)
  | store => exact hmem
  | remove => exact hmem
  | stamp other now recordedTickCount timeoutTicks hpolls => exact absurd hpolls (hop now)
  -- A buffer that leaves the Tx list is returned in the same transition.
  | settle other event result =>
      refine mem_unlink_of_ne hmem fun heq => hkept ?_
      rw [heq]
      exact List.mem_append_right _ (List.mem_singleton_self _)
  | accept other result t =>
      refine mem_unlink_of_ne hmem fun heq => hkept ?_
      rw [heq]
      exact List.mem_append_right _ List.mem_cons_self
  | drop => exact absurd (List.mem_append_left _ (returned_of_mem hmem)) hkept
  | refuse other reason result notices =>
      refine absurd (List.mem_append_right _ ?_) hkept
      by_cases heq : buffer.handle = other.handle
      · rw [heq]
        exact List.mem_cons_self
      · exact List.mem_cons_of_mem _
          (List.mem_append_left _ (returned_of_mem (mem_unlink_of_ne hmem heq)))
  | leave =>
      exact absurd (List.mem_append_right _ (List.mem_append_right _ (returned_of_mem hmem))) hkept
  | idle => exact absurd (returned_of_mem hmem) hkept
  | receive hreceives hstate hframe =>
      rw [hframe]
      exact hmem
  | obtainRx rxBuffer hreceives hstate hrx hframe =>
      rw [hframe]
      exact hmem
  | releaseRx rxBuffer =>
      refine mem_unlink_of_ne hmem fun heq => hkept ?_
      rw [heq]
      exact List.mem_singleton_self _
  | takeRx => exact hmem
  | giveBack handle =>
      refine mem_unlink_of_ne hmem fun heq => hkept ?_
      rw [heq]
      exact List.mem_singleton_self _

theorem steps_keep_waiting (h : Steps (Transition user op) c labels c')
    (hop : ∀ now, ¬ op.Polls now) {buffer : MQTTBuffer} (hmem : buffer ∈ c.txBufferList)
    (hkept : .returned buffer.handle ∉ labels) : buffer ∈ c'.txBufferList := by
  induction h with
  | refl => exact hmem
  | cons htransition _ ih =>
      have hfirst := htransition.keeps_waiting hop hmem fun h =>
        hkept (List.mem_append_left _ h)
      exact ih hfirst fun h => hkept (List.mem_append_right _ h)

/-! ## Runs -/

/-- The tick counts that a history passes to `MQTT_Periodic`. -/
def pollTicks (history : List (Op × List MQTTOutput)) : List UInt64 :=
  history.filterMap fun entry =>
    match entry.1 with
    | .periodic currentTickCount => some currentTickCount
    | _ => none

theorem poll_ticks_cons_of_polls {t : UInt64} (h : op.Polls t)
    (later : List (Op × List MQTTOutput)) :
    pollTicks ([(op, labels)] ++ later) = t :: pollTicks later := by
  cases op with
  | periodic currentTickCount =>
      cases h
      rfl
  | _ => exact absurd h id

theorem poll_ticks_cons_of_not_polls (h : ∀ t, ¬ op.Polls t)
    (later : List (Op × List MQTTOutput)) :
    pollTicks ([(op, labels)] ++ later) = pollTicks later := by
  cases op with
  | periodic currentTickCount => exact absurd rfl (h currentTickCount)
  | _ => rfl

/-- What happens to a request before a call of `MQTT_Periodic`: the clock has moved on by less than
`2 ^ 32` ticks from each call to the next, no call was due, and no other operation has returned its
buffer. An acknowledgment or a disconnect would have. -/
structure Undisturbed (request : MQTTBuffer) (since : List (Op × List MQTTOutput))
    (now : UInt64) : Prop where
  paced : (request.bufferState.recordedTickCount :: (pollTicks since ++ [now])).IsChain TicksOn
  early : ∀ t ∈ pollTicks since, t.toNat < request.due
  kept : ∀ entry ∈ since, (∀ t, ¬ entry.1.Polls t) → .returned request.handle ∉ entry.2

/-- An undisturbed request is still on the Tx list, due at the same tick count. -/
theorem steps_wait_until_due (h : Steps (Executes user) c since c')
    {l : Ledger MQTTBufferHandle} (haccounted : Accounted c l) (hconfined : ConnectConfined c)
    (hdisciplined : Guarded recordEntry Disciplined l since) {request : MQTTBuffer}
    (hmem : request ∈ c.txBufferList) (hrecorded : request.bufferState.recordedTickCount ≠ 0)
    (hundisturbed : Undisturbed request since now) :
    ∃ recorded remaining, request.stamp recorded remaining ∈ c'.txBufferList ∧ recorded ≠ 0 ∧
      TicksOn recorded now ∧ (request.stamp recorded remaining).due = request.due := by
  induction h generalizing l request with
  | refl c =>
      refine ⟨request.bufferState.recordedTickCount, request.bufferState.timeoutTicks, hmem,
        hrecorded, ?_, rfl⟩
      have hpaced := hundisturbed.paced
      simpa [pollTicks] using hpaced
  | @cons start middle finish first rest hexecutes _ ih =>
      obtain ⟨op, outputs, rfl, hsteps⟩ := hexecutes.steps haccounted.1
      rw [guarded_append] at hdisciplined
      obtain ⟨-, hbalanced⟩ := hexecutes.balanced haccounted.1 haccounted.2 hdisciplined.1
      have haccounted' : Accounted middle _ := ⟨hexecutes.base_invariant haccounted.1, hbalanced⟩
      have hconfined' := hexecutes.confined haccounted.1 hconfined
      -- Polls count the ticks down, everything else leaves the request as it is.
      by_cases hpolls : ∃ t, op.Polls t
      · obtain ⟨t, hpolls⟩ := hpolls
        obtain ⟨paced, early, kept⟩ := hundisturbed
        rw [poll_ticks_cons_of_polls hpolls] at paced early
        rw [List.cons_append, List.isChain_cons_cons] at paced
        have hdue := early t List.mem_cons_self
        obtain ⟨w, rfl, -⟩ := hexecutes.periodic hpolls
        obtain ⟨_, hpolled⟩ := periodic_polled user t ⟨start, w, []⟩ haccounted.1.released
          hconfined (List.nodup_append.mp haccounted.2.places_nodup).1
        have hwaits : request.elapsed t = false := by
          rw [← Bool.not_eq_true, elapsed_iff hrecorded paced.1]
          omega
        obtain ⟨hnow, hsame⟩ := ticked_due hrecorded paced.1 hdue
        have hlater : (request.ticked t).bufferState.recordedTickCount ≠ 0 := by
          rw [hnow]
          exact paced.1.ne_zero hrecorded
        obtain ⟨recorded, remaining, hleft, hrest⟩ := ih haccounted' hconfined' hdisciplined.2
          (hpolled.waits request hmem hwaits).2 hlater
          ⟨by rw [hnow]; exact paced.2, fun t hmem => hsame ▸ early t (List.mem_cons_of_mem _ hmem),
            fun entry hmem => kept entry (List.mem_append_right _ hmem)⟩
        exact ⟨recorded, remaining, hleft, hrest.1, hrest.2.1, hrest.2.2.trans hsame⟩
      · have hother : ∀ t, ¬ op.Polls t := fun t ht => hpolls ⟨t, ht⟩
        obtain ⟨paced, early, kept⟩ := hundisturbed
        rw [poll_ticks_cons_of_not_polls hother] at paced early
        have hleft := steps_keep_waiting hsteps hother hmem
          (kept (op, outputs) List.mem_cons_self hother)
        exact ih haccounted' hconfined' hdisciplined.2 hleft hrecorded
          ⟨paced, early, fun entry hmem => kept entry (List.mem_append_right _ hmem)⟩

/-- In every run whose pool is honest, the answer of a call of `MQTT_Periodic` is at most what
remains for any request that is still on the Tx list, and for the keep-alive timer if the client is
connected. A request that was on the Tx list at some earlier point of the run, and that nothing has
ended since, is ended by this call exactly if it is due. Otherwise it stays on the list, due at the
same tick count as when it was sent. -/
theorem request_timeout_exact (user : MQTTInitParams W) (memory : MQTTContext)
    {history : List (Op × List MQTTOutput)} {c : MQTTContext} (hrun : Run user memory history c)
    (hdisciplined : Guarded recordEntry Disciplined .empty history) (now : UInt64) (w : W) :
    let answer := mqttPeriodic user now ⟨c, w, []⟩
    (∀ buffer ∈ answer.1.context.txBufferList, answer.2 ≤ buffer.bufferState.timeoutTicks) ∧
    (answer.1.context.connectionState = .connected →
      answer.2 ≤ answer.1.context.nextPeriodicInvokeTicks) ∧
    ∀ past since sent request, history = past ++ since → Run user memory past sent →
      Steps (Executes user) sent since c → request ∈ sent.txBufferList →
      request.bufferState.recordedTickCount ≠ 0 → Undisturbed request since now →
        (.returned request.handle ∈ answer.1.outputs ↔ request.due ≤ now.toNat) ∧
        (request.due ≤ now.toNat →
          .event request.timeoutEvent ∈ answer.1.outputs ∧
            request.handle ∉ answer.1.context.txBufferList.map MQTTBuffer.handle) ∧
        (now.toNat < request.due → ∃ buffer ∈ answer.1.context.txBufferList,
          buffer.handle = request.handle ∧ buffer.bufferState.recordedTickCount = now ∧
            buffer.due = request.due) := by
  intro answer
  obtain ⟨-, hbase, hbalanced⟩ := hrun.accounted hdisciplined
  obtain ⟨labels, hpolled⟩ := periodic_polled user now ⟨c, w, []⟩ hbase.released hrun.confined.2
    (List.nodup_append.mp hbalanced.places_nodup).1
  have houtputs : answer.1.outputs = labels := by
    rw [hpolled.calls.outputs]
    rfl
  obtain ⟨-, -, -, htimer, -⟩ := periodic_after_loop user now ⟨c, w, []⟩
  refine ⟨hpolled.remaining, htimer, ?_⟩
  intro past since sent request hhistory hpast hsince hmem hrecorded hundisturbed
  rw [hhistory, guarded_append] at hdisciplined
  obtain ⟨recorded, remaining, hleft, hnonzero, hon, hsame⟩ := steps_wait_until_due hsince
    (hpast.accounted hdisciplined.1).2 hpast.confined.2 hdisciplined.2 hmem hrecorded hundisturbed
  have hdue : (request.stamp recorded remaining).elapsed now = true ↔
      (request.stamp recorded remaining).due ≤ now.toNat := elapsed_iff hnonzero hon
  rw [hsame] at hdue
  rw [houtputs]
  -- What is left of the request is due at the same tick as it was when it was sent.
  refine ⟨⟨fun hreturned => ?_, fun hlate => ?_⟩, fun hlate => ?_, fun hearly => ?_⟩
  · by_contra hearly
    have hwaits : (request.stamp recorded remaining).elapsed now = false := by
      rw [← Bool.not_eq_true, hdue]
      exact hearly
    exact (hpolled.waits _ hleft hwaits).1 hreturned
  · exact (hpolled.ended _ hleft (hdue.mpr hlate)).2.1
  · obtain ⟨hevent, -, hgone⟩ := hpolled.ended _ hleft (hdue.mpr hlate)
    exact ⟨hevent, hgone⟩
  · have hwaits : (request.stamp recorded remaining).elapsed now = false := by
      rw [← Bool.not_eq_true, hdue]
      omega
    obtain ⟨hnow, hkept⟩ := ticked_due hnonzero hon (by rw [hsame]; exact hearly)
    exact ⟨_, (hpolled.waits _ hleft hwaits).2, rfl, hnow, hkept.trans hsame⟩

/-- A connected client sends UNSUBSCRIBE at tick 12 with a timeout of 100 ticks. -/
def unsubscribeSent : List (Bench × Op) :=
  [(⟨1, 10, 100, false⟩, .connect benchConnect),
    (⟨2, 11, 100, false⟩, .parseReceivedData acceptingConnACK),
    (⟨3, 12, 100, false⟩, .unsubscribe benchUnsubscribe)]

/-- After a call at tick 50 it is ended by the call at tick 112. -/
theorem request_timeout_exact_unsubscribe :
    ∃ history c, Run benchUser blankContext history c ∧
      .returned 3 ∈ (mqttPeriodic benchUser 112 ⟨c, ⟨4, 112, 100, false⟩, []⟩).1.outputs := by
  have hpast : Run benchUser blankContext _ _ :=
    run_of_replayed (show (replay benchUser unsubscribeSent _).isSome from rfl)
  generalize hsent : (replayed benchUser unsubscribeSent (mqttInit blankContext)).2 = sent at hpast
  have hsince : Labelled.Steps (Executes benchUser) sent _ _ :=
    run_of_replayed (show (replay benchUser [(⟨4, 50, 100, false⟩, .periodic 50)] sent).isSome
      from rfl)
  have hrun : Run benchUser blankContext _ _ := hpast.append hsince
  subst hsent
  obtain ⟨request, hmem, hhandle, hrecorded, hdue⟩ : ∃ request ∈
      (replayed benchUser unsubscribeSent (mqttInit blankContext)).2.txBufferList,
      request.handle = 3 ∧ request.bufferState.recordedTickCount = 12 ∧ request.due = 112 := by
    decide +kernel
  refine ⟨_, _, hrun, ?_⟩
  obtain ⟨-, -, htimeout⟩ := request_timeout_exact benchUser blankContext hrun
    (by decide +kernel) 112 ⟨4, 112, 100, false⟩
  have hundisturbed : Undisturbed request (replayed benchUser
      [(⟨4, 50, 100, false⟩, .periodic 50)]
      (replayed benchUser unsubscribeSent (mqttInit blankContext)).2).1 112 := by
    have hticks : pollTicks (replayed benchUser [(⟨4, 50, 100, false⟩, .periodic 50)]
      (replayed benchUser unsubscribeSent (mqttInit blankContext)).2).1 = [50] := rfl
    refine ⟨?_, ?_, ?_⟩
    · rw [hticks, hrecorded]
      simp [TicksOn]
    · rw [hticks, hdue]
      simp
    · intro entry hentry hpolls
      have hops : (replayed benchUser [(⟨4, 50, 100, false⟩, .periodic 50)]
        (replayed benchUser unsubscribeSent (mqttInit blankContext)).2).1.map Prod.fst =
          [.periodic 50] := rfl
      have hop := List.mem_map_of_mem (f := Prod.fst) hentry
      rw [hops, List.mem_singleton] at hop
      rw [hop] at hpolls
      exact absurd rfl (hpolls 50)
  rw [← hhandle]
  exact (htimeout _ _ _ request rfl hpast hsince hmem (by rw [hrecorded]; decide)
    hundisturbed).1.mpr (by rw [hdue]; decide)

end TivaAws.Mqtt
