import TivaAws.Mqtt.Connection
import TivaAws.Mqtt.SendStream

/-!
# The answer to PINGREQ

One timestamp and one interval are both the keep-alive timer and the timer for PINGRESP. After
PINGREQ the interval is the timeout of the ping, so the timestamp and the interval add up to the
tick count at which the answer is due. `MQTT_Periodic` keeps that sum, but every packet that is sent
starts the timer again with the keep-alive interval. The timeout is reported in time as long as no
such restart moves the sum beyond the due tick count.
-/

namespace TivaAws.Mqtt

open Session Labelled

variable {W : Type} {user : MQTTInitParams W} {op : Op} {c c' : MQTTContext}
  {labels : List MQTTOutput} {s : Session W}

/-! ## What MQTT_Periodic does to the timer -/

/-- The keep-alive timer and what it is compared with are the same. -/
structure SameTimer (before after : MQTTContext) : Prop where
  recorded : after.lastSentMessageTimestamp = before.lastSentMessageTimestamp
  remaining : after.nextPeriodicInvokeTicks = before.nextPeriodicInvokeTicks
  interval : after.keepAliveActualIntervalTicks = before.keepAliveActualIntervalTicks
  timeout : after.pingRequestTimeoutTicks = before.pingRequestTimeoutTicks
  waiting : after.waitingForPingResp = before.waitingForPingResp

theorem SameTimer.refl (c : MQTTContext) : SameTimer c c := ⟨rfl, rfl, rfl, rfl, rfl⟩

theorem SameTimer.trans {c c' c'' : MQTTContext} (hfirst : SameTimer c c')
    (hsecond : SameTimer c' c'') : SameTimer c c'' :=
  ⟨hsecond.recorded.trans hfirst.recorded, hsecond.remaining.trans hfirst.remaining,
    hsecond.interval.trans hfirst.interval, hsecond.timeout.trans hfirst.timeout,
    hsecond.waiting.trans hfirst.waiting⟩

/-- Reporting a timeout sends nothing and leaves the timer alone. -/
theorem report_timeout_timer (user : MQTTInitParams W) (buffer : MQTTBuffer) (s : Session W) :
    ∃ labels, Calls user s labels (reportTimeout user buffer s) ∧ sends labels = [] ∧
      SameTimer s.context (reportTimeout user buffer s).context := by
  unfold reportTimeout
  simp only
  generalize hsettle : (s.update fun context =>
    if buffer.controlByte = controlSUBSCRIBE ||| flagsSUBSCRIBE then
      { context with
        subscriptionManager := prvRemoveSubscriptionForSubscribeOrUnsubscribeBuffer
          buffer context.subscriptionManager }
    else context) = settled
  have hcalls : Calls user s [] settled := by
    subst hsettle
    exact (Calls.refl s).update _
  have hsame : SameTimer s.context settled.context := by
    subst hsettle
    rw [update_context]
    split_ifs
    · exact ⟨rfl, rfl, rfl, rfl, rfl⟩
    · exact .refl _
  obtain ⟨hevent, hcontext⟩ := invoke_callback_spec user
    (.timeout buffer.bufferState.packetIdentifier) (by simp) settled
  refine ⟨_, (hcalls.trans hevent).trans (calls_return_buffer buffer.handle _), by simp, ?_⟩
  rw [return_buffer_context, hcontext]
  exact hsame.trans ⟨rfl, rfl, rfl, rfl, rfl⟩

/-- The loop over the Tx list sends nothing and leaves the timer alone. -/
theorem periodic_tx_loop_timer (user : MQTTInitParams W) (now : UInt64)
    (handles : List MQTTBufferHandle) (next : UInt32) (s : Session W) :
    ∃ labels, Calls user s labels (periodicTxLoop user now handles next s).1 ∧
      sends labels = [] ∧
        SameTimer s.context (periodicTxLoop user now handles next s).1.context := by
  induction handles generalizing next s with
  | nil => exact ⟨[], .refl s, rfl, .refl _⟩
  | cons handle rest ih =>
      unfold periodicTxLoop
      cases hfind : s.context.txBufferList.find? fun buffer => buffer.handle == handle with
      | none => exact ih next s
      | some buffer =>
          simp only
          generalize prvIsTimeElapsed buffer.bufferState.recordedTickCount now
            buffer.bufferState.timeoutTicks = time
          generalize hstamp : s.update (storeTxBuffer (buffer.stamp time.2.1 time.2.2)) = stamped
          have hcalls : Calls user s [] stamped := by
            subst hstamp
            exact (Calls.refl s).update _
          have hsame : SameTimer s.context stamped.context := by
            subst hstamp
            exact ⟨rfl, rfl, rfl, rfl, rfl⟩
          split_ifs
          · obtain ⟨result, hreset, hcontext⟩ := reset_and_report_spec user .connectTimeout stamped
            refine ⟨_, hcalls.trans hreset, by simp, hsame.trans ?_⟩
            rw [hcontext]
            exact ⟨rfl, rfl, rfl, rfl, rfl⟩
          · obtain ⟨labels, hreport, hquiet, hkept⟩ :=
              report_timeout_timer user (buffer.stamp time.2.1 time.2.2) stamped
            obtain ⟨labels', hrest, hquiet', hkept'⟩ := ih next
              (reportTimeout user (buffer.stamp time.2.1 time.2.2) stamped)
            refine ⟨_, (hcalls.trans hreport).trans hrest, ?_, (hsame.trans hkept).trans hkept'⟩
            rw [List.nil_append, sends_append, hquiet, hquiet']
            rfl
          · obtain ⟨labels, hrest, hquiet, hkept⟩ := ih (min next time.2.2) stamped
            exact ⟨_, hcalls.trans hrest, hquiet, hsame.trans hkept⟩

/-- What `MQTT_Periodic` has done about the keep-alive timer when it leaves the connection open: the
timer has not run out, or the missing PINGRESP has been reported, or PINGREQ has been sent or could
not be sent. -/
inductive KeepAlive (user : MQTTInitParams W) (now : UInt64) (s s' : Session W) : Prop where
  | running (loop : List MQTTOutput) : Calls user s loop s' → sends loop = [] →
      prvIsTimeElapsed s.context.lastSentMessageTimestamp now s.context.nextPeriodicInvokeTicks =
        (false, s'.context.lastSentMessageTimestamp, s'.context.nextPeriodicInvokeTicks) →
      s'.context.keepAliveActualIntervalTicks = s.context.keepAliveActualIntervalTicks →
      s'.context.waitingForPingResp = s.context.waitingForPingResp → KeepAlive user now s s'
  | reported (loop : List MQTTOutput) (result) : s.context.waitingForPingResp = true →
      Calls user s (loop ++ user.reported .pingTimeout result) s' → sends loop = [] →
      KeepAlive user now s s'
  | unsent (loop : List MQTTOutput) (count t) : s.context.waitingForPingResp = false →
      count ≠ pingReqPacket.length →
      Calls user s (loop ++ user.transmitted pingReqPacket count t) s' → sends loop = [] →
      KeepAlive user now s s'
  | pinged (loop : List MQTTOutput) (t t') : s.context.waitingForPingResp = false →
      Calls user s (loop ++ (user.transmitted pingReqPacket pingReqPacket.length t ++
        user.clock t')) s' → sends loop = [] →
      s'.context.lastSentMessageTimestamp = t' →
      s'.context.nextPeriodicInvokeTicks = s'.context.pingRequestTimeoutTicks →
      s'.context.waitingForPingResp = true → KeepAlive user now s s'

theorem keep_alive_elapsed_outcome (now : UInt64) {labels : List MQTTOutput} {looped : Session W}
    (hloop : Calls user s labels looped) (hquiet : sends labels = [])
    (hsame : looped.context.waitingForPingResp = s.context.waitingForPingResp) :
    KeepAlive user now s (keepAliveElapsed user looped) := by
  unfold keepAliveElapsed
  by_cases hwaiting : looped.context.waitingForPingResp = true
  · rw [if_pos hwaiting]
    obtain ⟨hevent, hcontext⟩ := invoke_callback_spec user .pingTimeout (by simp) looped
    exact .reported labels _ (hsame ▸ hwaiting) ((hloop.trans hevent).update _) hquiet
  · rw [if_neg hwaiting]
    have hidle : s.context.waitingForPingResp = false := by
      rw [← hsame]
      simpa using hwaiting
    obtain ⟨count, t, hsend, hcontext, hcode⟩ := send_data_spec user pingReqPacket looped
    simp only
    generalize prvSendData user pingReqPacket looped = sent at hsend hcontext hcode ⊢
    by_cases hcount : count = pingReqPacket.length
    · rw [if_pos (hcode.mpr hcount)]
      subst hcount
      obtain ⟨hnow, hnowContext⟩ := get_current_tick_count_spec user sent.2
      exact .pinged labels t _ hidle ((hloop.trans (hsend.trans hnow)).update _) hquiet rfl rfl rfl
    · rw [if_neg (fun h => hcount (hcode.mp h))]
      exact .unsent labels count t hidle hcount (hloop.trans hsend) hquiet

theorem periodic_keep_alive (user : MQTTInitParams W) (now : UInt64) (s : Session W)
    (hconnected : (mqttPeriodic user now s).1.context.connectionState = .connected) :
    KeepAlive user now s (mqttPeriodic user now s).1 := by
  obtain ⟨labels, hloop, hquiet, hsame⟩ := periodic_tx_loop_timer user now
    (s.context.txBufferList.map MQTTBuffer.handle) (UInt32.ofNat (2 ^ 32 - 1)) s
  unfold mqttPeriodic at hconnected ⊢
  generalize periodicTxLoop user now (s.context.txBufferList.map MQTTBuffer.handle)
    (UInt32.ofNat (2 ^ 32 - 1)) s = looped at hloop hsame hconnected ⊢
  simp only at hconnected ⊢
  by_cases hopen : looped.1.context.connectionState = .connected
  · rw [if_pos hopen]
    simp only
    rw [hsame.recorded, hsame.remaining]
    generalize htime : prvIsTimeElapsed s.context.lastSentMessageTimestamp now
      s.context.nextPeriodicInvokeTicks = time
    by_cases helapsed : time.1 = true
    · rw [if_pos helapsed]
      exact keep_alive_elapsed_outcome now (hloop.update _) hquiet hsame.waiting
    · rw [if_neg helapsed]
      refine .running labels (hloop.update _) hquiet ?_ hsame.interval hsame.waiting
      rw [htime]
      exact Prod.ext (by simpa using helapsed) rfl
  · rw [if_neg hopen] at hconnected
    exact absurd hconnected hopen

/-! ## What the outputs say -/

/-- The tick count at which a packet was sent: the one read right after it was accepted whole. -/
def MQTTOutput.sendTick (output : MQTTOutput) (next : Option MQTTOutput) : List UInt64 :=
  match output, next with
  | .sent data count, some (.ticks t) => if count = data.length then [t] else []
  | _, _ => []

/-- The tick counts at which packets were sent. -/
def sendTicks : List MQTTOutput → List UInt64
  | [] => []
  | output :: rest => output.sendTick rest.head? ++ sendTicks rest

/-- The whole packets that reached a handler. -/
def handledPackets (outputs : List MQTTOutput) : List (List UInt8) :=
  outputs.filterMap fun output =>
    match output with
    | .handled packet => some packet
    | _ => none

/-- The output reports that PINGRESP has not arrived in time. -/
def MQTTOutput.isPingTimeout : MQTTOutput → Bool
  | .event .pingTimeout => true
  | _ => false

theorem send_ticks_append_right (first second : List MQTTOutput) :
    sendTicks second ⊆ sendTicks (first ++ second) := by
  induction first with
  | nil => exact List.Subset.refl _
  | cons output rest ih => exact List.subset_append_of_subset_right _ ih

theorem send_ticks_append_left (first second : List MQTTOutput) :
    sendTicks first ⊆ sendTicks (first ++ second) := by
  induction first with
  | nil => exact List.nil_subset _
  | cons output rest ih =>
      refine List.append_subset.mpr ⟨?_, List.subset_append_of_subset_right _ ih⟩
      cases rest with
      | nil =>
          have hlast : output.sendTick none = [] := by cases output <;> rfl
          show output.sendTick none ⊆ _
          rw [hlast]
          exact List.nil_subset _
      | cons next rest => exact List.subset_append_left _ _

/-- A packet that was accepted whole was sent at the tick count read next. -/
theorem send_ticks_transmitted (hclock : user.getTicks.isSome) (data : List UInt8) (t : UInt64) :
    t ∈ sendTicks (user.transmitted data data.length t) := by
  simp [MQTTInitParams.transmitted, MQTTInitParams.clock, hclock, sendTicks, MQTTOutput.sendTick]

/-! ## Waiting for PINGRESP -/

/-- PINGRESP is awaited on an open connection, and the timer runs out by the due tick count. -/
structure AwaitsPing (due : Nat) (interval : UInt32) (context : MQTTContext) : Prop where
  connected : context.connectionState = .connected
  waiting : context.waitingForPingResp = true
  recorded : context.lastSentMessageTimestamp ≠ 0
  timer : context.lastSentMessageTimestamp.toNat + context.nextPeriodicInvokeTicks.toNat ≤ due
  interval : context.keepAliveActualIntervalTicks = interval

variable {due : Nat} {interval : UInt32}

theorem AwaitsPing.congr (h : AwaitsPing due interval c)
    (hstate : c'.connectionState = c.connectionState) (hsame : SameTimer c c') :
    AwaitsPing due interval c' := by
  refine ⟨hstate.trans h.connected, hsame.waiting.trans h.waiting, ?_, ?_,
    hsame.interval.trans h.interval⟩
  · rw [hsame.recorded]
    exact h.recorded
  · rw [hsame.recorded, hsame.remaining]
    exact h.timer

/-- A packet sent early enough restarts the timer within the due tick count. -/
theorem AwaitsPing.restart {t : UInt64} (h : AwaitsPing due interval c) (ht : t ≠ 0)
    (hdue : t.toNat + interval.toNat ≤ due) : AwaitsPing due interval (c.restartKeepAlive t) := by
  refine ⟨h.connected, h.waiting, ht, ?_, h.interval⟩
  show t.toNat + c.keepAliveActualIntervalTicks.toNat ≤ due
  rw [h.interval]
  exact hdue

/-- The packets sent are sent early enough for the timer to run out by the due tick count. -/
def SendsBefore (due : Nat) (interval : UInt32) (outputs : List MQTTOutput) : Prop :=
  ∀ t ∈ sendTicks outputs, t ≠ 0 ∧ t.toNat + interval.toNat ≤ due

instance (due : Nat) (interval : UInt32) (outputs : List MQTTOutput) :
    Decidable (SendsBefore due interval outputs) :=
  List.decidableBAll (fun t : UInt64 => t ≠ 0 ∧ t.toNat + interval.toNat ≤ due) (sendTicks outputs)

theorem SendsBefore.append {first second : List MQTTOutput}
    (h : SendsBefore due interval (first ++ second)) :
    SendsBefore due interval first ∧ SendsBefore due interval second :=
  ⟨fun t ht => h t (send_ticks_append_left first second ht),
    fun t ht => h t (send_ticks_append_right first second ht)⟩

/-- A transition of an operation other than MQTT_Periodic that sends early enough and handles no
PINGRESP keeps the wait or ends the connection. -/
theorem Transition.awaits_ping (h : Transition user op c labels c') (hop : ∀ now, ¬ op.Polls now)
    (hclock : user.getTicks.isSome) (hconfined : ConnectConfined c)
    (hsends : SendsBefore due interval labels) (hpong : pingRespPacket ∉ handledPackets labels)
    (hinv : AwaitsPing due interval c) :
    AwaitsPing due interval c' ∨ c'.connectionState = .notConnected ∧ ¬ op.Connects := by
  have hopen : c.connectionState ≠ .notConnected := by
    rw [hinv.connected]
    decide
  -- The only thing that moves the due tick count is a packet that is sent whole.
  have hrestart : ∀ {first second : List MQTTOutput} {data : List UInt8} {t : UInt64},
      labels = first ++ (user.transmitted data data.length t ++ second) →
      AwaitsPing due interval (c.restartKeepAlive t) := by
    rintro first second data t rfl
    obtain ⟨ht, hdue⟩ := hsends.append.2.append.1 t (send_ticks_transmitted hclock data t)
    exact hinv.restart ht hdue
  cases h with
  | quiet => exact Or.inl hinv
  | configure params hconnect hidle => exact absurd hidle hopen
  | connect buffer t t' hconnects hidle => exact absurd hidle hopen
  | request buffer t t' =>
      have hsplit : .obtained buffer.handle :: (user.clock t ++
          user.transmitted buffer.packet buffer.packet.length t') =
          (.obtained buffer.handle :: user.clock t) ++
            (user.transmitted buffer.packet buffer.packet.length t' ++ []) := by simp
      exact Or.inl ((hrestart hsplit).congr rfl ⟨rfl, rfl, rfl, rfl, rfl⟩)
  | transient buffer count t t' =>
      left
      split_ifs with hcount
      · subst hcount
        have hsplit : .obtained buffer.handle :: (user.clock t ++
            (user.transmitted buffer.packet buffer.packet.length t' ++
              [.returned buffer.handle])) =
            (.obtained buffer.handle :: user.clock t) ++
              (user.transmitted buffer.packet buffer.packet.length t' ++
                [.returned buffer.handle]) := rfl
        exact hrestart hsplit
      · exact hinv
  | send data count t =>
      left
      split_ifs with hcount
      · subst hcount
        have hsplit : user.transmitted data data.length t =
            [] ++ (user.transmitted data data.length t ++ []) := by simp
        exact hrestart hsplit
      · exact hinv
  -- Only MQTT_Periodic sends PINGREQ and measures the time.
  | ping now t t' hpolls => exact absurd hpolls (hop now)
  | pong t => exact absurd (List.mem_cons_self) hpong
  | pingTimedOut now result hpolls => exact absurd hpolls (hop now)
  | elapse now hpolls => exact absurd hpolls (hop now)
  | store => exact Or.inl (hinv.congr rfl ⟨rfl, rfl, rfl, rfl, rfl⟩)
  | remove => exact Or.inl (hinv.congr rfl ⟨rfl, rfl, rfl, rfl, rfl⟩)
  | stamp => exact Or.inl (hinv.congr rfl ⟨rfl, rfl, rfl, rfl, rfl⟩)
  | settle => exact Or.inl (hinv.congr rfl ⟨rfl, rfl, rfl, rfl, rfl⟩)
  -- There is no CONNECT on the Tx list of an open connection, so no CONNACK is accepted.
  | accept buffer result t hreceives hstate hmem hconnect =>
      exact absurd hconnect (hconfined.connected hinv.connected buffer hmem)
  | drop reason result hdrops => exact Or.inr ⟨rfl, hdrops.not_connects⟩
  | refuse buffer reason result notices hreceives => exact Or.inr ⟨rfl, hreceives.not_connects⟩
  | leave count t result hleave =>
      refine Or.inr ⟨?_, by rw [hleave]; exact id⟩
      split_ifs
      · rfl
      · rfl
  | idle hleave hidle => exact absurd hidle hopen
  | receive hreceives hstate hframe =>
      rw [hframe]
      exact Or.inl (hinv.congr rfl ⟨rfl, rfl, rfl, rfl, rfl⟩)
  | obtainRx rxBuffer hreceives hstate hrx hframe =>
      rw [hframe]
      exact Or.inl (hinv.congr rfl ⟨rfl, rfl, rfl, rfl, rfl⟩)
  | releaseRx => exact Or.inl (hinv.congr rfl ⟨rfl, rfl, rfl, rfl, rfl⟩)
  | takeRx => exact Or.inl (hinv.congr rfl ⟨rfl, rfl, rfl, rfl, rfl⟩)
  | giveBack => exact Or.inl (hinv.congr rfl ⟨rfl, rfl, rfl, rfl, rfl⟩)

theorem steps_await_ping (h : Steps (Transition user op) c labels c')
    (hop : ∀ now, ¬ op.Polls now) (hclock : user.getTicks.isSome)
    (hreleased : ReleasedWhenDisconnected c) (hconfined : ConnectConfined c)
    (hsends : SendsBefore due interval labels) (hpong : pingRespPacket ∉ handledPackets labels)
    (hinv : AwaitsPing due interval c) :
    AwaitsPing due interval c' ∨ c'.connectionState = .notConnected ∧ ¬ op.Connects := by
  induction h with
  | refl => exact Or.inl hinv
  | @cons start middle finish first rest htransition hrest ih =>
      obtain ⟨hfirst, hlater⟩ := hsends.append
      rw [handledPackets, List.filterMap_append, List.mem_append, not_or] at hpong
      rcases htransition.awaits_ping hop hclock hconfined hfirst hpong.1 hinv with
        hwaits | ⟨hclosed, hconnects⟩
      · exact ih (htransition.released hreleased) (htransition.confined hreleased hconfined) hlater
          hpong.2 hwaits
      · exact Or.inr ⟨(steps_stay_closed hrest hconnects hclosed).1, hconnects⟩

/-- While the time has not elapsed, the recorded tick count and the remaining ticks keep their sum,
and ticks remain. -/
theorem time_not_elapsed {recorded now recorded' : UInt64} {remaining remaining' : UInt32}
    (h : prvIsTimeElapsed recorded now remaining = (false, recorded', remaining'))
    (hrecorded : recorded ≠ 0) (hle : recorded ≤ now)
    (hgap : now.toNat < recorded.toNat + 2 ^ 32) :
    recorded' = now ∧ now.toNat + remaining'.toNat = recorded.toNat + remaining.toNat ∧
      0 < remaining'.toNat := by
  have hticks : (now - recorded).toUInt32.toNat = now.toNat - recorded.toNat := by
    rw [UInt64.toNat_toUInt32, UInt64.toNat_sub_of_le _ _ hle]
    exact Nat.mod_eq_of_lt (by omega)
  have hle' : recorded.toNat ≤ now.toNat := UInt64.le_iff_toNat_le.mp hle
  unfold prvIsTimeElapsed at h
  rw [if_neg hrecorded] at h
  change (if (now - recorded).toUInt32 ≥ remaining then (true, now, 0)
    else (false, now, remaining - (now - recorded).toUInt32)) = _ at h
  by_cases helapsed : (now - recorded).toUInt32 ≥ remaining
  · rw [if_pos helapsed] at h
    exact absurd (congrArg Prod.fst h) (by simp)
  · rw [if_neg helapsed] at h
    cases h
    have hless : (now - recorded).toUInt32 < remaining := UInt32.not_le.mp helapsed
    rw [UInt32.toNat_sub_of_le _ _ (UInt32.le_of_lt hless), hticks]
    rw [UInt32.lt_iff_toNat_lt, hticks] at hless
    exact ⟨rfl, by omega, by omega⟩

/-- An operation while PINGRESP is awaited on an open connection: no PINGRESP is handled, what is
sent is sent early enough, and the clock of `MQTT_Periodic` has moved on by less than `2 ^ 32`
ticks. -/
inductive Waits (user : MQTTInitParams W) (due : Nat) (interval : UInt32) :
    MQTTContext → List (Op × List MQTTOutput) → MQTTContext → Prop where
  | step {context context' : MQTTContext} {op : Op} {outputs : List MQTTOutput} :
      Executes user context [(op, outputs)] context' → context'.connectionState = .connected →
      pingRespPacket ∉ handledPackets outputs → SendsBefore due interval outputs →
      (∀ now, op.Polls now → context.lastSentMessageTimestamp ≤ now ∧
        now.toNat < context.lastSentMessageTimestamp.toNat + 2 ^ 32) →
      Waits user due interval context [(op, outputs)] context'

/-- The outputs report that PINGRESP has not arrived in time. -/
def ReportsPingTimeout (outputs : List MQTTOutput) : Prop :=
  ∃ output ∈ outputs, output.isPingTimeout = true

instance (outputs : List MQTTOutput) : Decidable (ReportsPingTimeout outputs) :=
  inferInstanceAs (Decidable (∃ output ∈ outputs, _))

/-- An operation at a tick count is the call of `MQTT_Periodic` with it. -/
theorem Executes.periodic {outputs : List MQTTOutput} {now : UInt64} (hnow : op.Polls now)
    (h : Executes user c [(op, outputs)] c') :
    ∃ w, (mqttPeriodic user now ⟨c, w, []⟩).1.context = c' ∧
      (mqttPeriodic user now ⟨c, w, []⟩).1.outputs = outputs := by
  generalize hentry : [(op, outputs)] = entry at h
  cases h with
  | @call op' s w hexecute =>
      cases hentry
      cases op with
      | periodic currentTickCount =>
          cases hnow
          cases hexecute
          exact ⟨w, rfl, rfl⟩
      | _ => exact absurd hnow id

/-- While PINGRESP is awaited an operation reports the timeout or keeps the wait, and
`MQTT_Periodic` reports it once the answer is due. -/
theorem Executes.awaits_ping {outputs : List MQTTOutput} (hclock : user.getTicks.isSome)
    (hbase : BaseInvariant c) (hconfined : ConnectConfined c) (hinv : AwaitsPing due interval c)
    (hwaits : Waits user due interval c [(op, outputs)] c') :
    ReportsPingTimeout outputs ∨
      AwaitsPing due interval c' ∧ ∀ now, op.Polls now → now.toNat < due := by
  cases hwaits with
  | step hexecutes hconnected hpong hsends hpolls =>
      by_cases hop : ∃ now, op.Polls now
      · obtain ⟨now, hnow⟩ := hop
        obtain ⟨hle, hgap⟩ := hpolls now hnow
        obtain ⟨w, rfl, rfl⟩ := hexecutes.periodic hnow
        have hkeep := periodic_keep_alive user now ⟨c, w, []⟩ hconnected
        generalize (mqttPeriodic user now ⟨c, w, []⟩).1 = s' at hconnected hkeep ⊢
        cases hkeep with
        | running loop hcalls hquiet htime hinterval hwaiting =>
            obtain ⟨hrecorded, hsum, hpos⟩ := time_not_elapsed htime hinv.recorded hle hgap
            have htimer := hinv.timer
            have hnonzero : now ≠ 0 := by
              rintro rfl
              exact hinv.recorded (UInt64.le_antisymm hle (UInt64.zero_le))
            refine Or.inr ⟨⟨hconnected, hwaiting.trans hinv.waiting, ?_, ?_,
              hinterval.trans hinv.interval⟩, ?_⟩
            · rw [hrecorded]
              exact hnonzero
            · rw [hrecorded, hsum]
              exact htimer
            · intro other hother
              rw [← hnow.unique hother]
              simp only at hsum
              omega
        | reported loop result hwaiting hcalls hquiet =>
            refine Or.inl ⟨.event .pingTimeout, ?_, rfl⟩
            rw [hcalls.outputs]
            simp [MQTTInitParams.reported]
        | unsent loop count t hidle => exact absurd (hidle.symm.trans hinv.waiting) (by decide)
        | pinged loop t t' hidle => exact absurd (hidle.symm.trans hinv.waiting) (by decide)
      · have hother : ∀ now, ¬ op.Polls now := fun now hnow => hop ⟨now, hnow⟩
        obtain ⟨op', labels, hentry, hsteps⟩ := hexecutes.steps hbase
        cases hentry
        rcases steps_await_ping hsteps hother hclock hbase.released hconfined hsends hpong hinv
          with hkept | ⟨hclosed, -⟩
        · exact Or.inr ⟨hkept, fun now hnow => absurd hnow (hother now)⟩
        · exact absurd (hconnected.symm.trans hclosed) (by decide)

/-! ## The timeout is reported in time -/

/-- PINGREQ has been sent, and the answer is due after the ping timeout. -/
theorem Executes.ping_sent {outputs : List MQTTOutput} {now : UInt64}
    (h : Executes user c [(.periodic now, outputs)] c')
    (hsent : (pingReqPacket, pingReqPacket.length) ∈ sends outputs)
    (hconnected : c'.connectionState = .connected) (hnonzero : c'.lastSentMessageTimestamp ≠ 0) :
    AwaitsPing (c'.lastSentMessageTimestamp.toNat + c'.pingRequestTimeoutTicks.toNat)
      c'.keepAliveActualIntervalTicks c' := by
  obtain ⟨w, rfl, rfl⟩ := h.periodic (show (Op.periodic now).Polls now from rfl)
  have hkeep := periodic_keep_alive user now ⟨c, w, []⟩ hconnected
  generalize (mqttPeriodic user now ⟨c, w, []⟩).1 = s' at hsent hconnected hnonzero hkeep ⊢
  cases hkeep with
  | running loop hcalls hquiet => simp [hcalls.outputs, hquiet] at hsent
  | reported loop result hwaiting hcalls hquiet => simp [hcalls.outputs, hquiet] at hsent
  | unsent loop count t hidle hcount hcalls hquiet =>
      simp only [hcalls.outputs, List.nil_append, sends_append, hquiet, sends_transmitted,
        List.mem_singleton, Prod.mk.injEq, true_and] at hsent
      exact absurd hsent.symm hcount
  | pinged loop t t' hidle hcalls hquiet hrecorded hremaining hwaiting =>
      exact ⟨hconnected, hwaiting, hnonzero, by rw [hremaining], rfl⟩

/-- Every operation of the wait reports the timeout or keeps the wait. -/
theorem steps_wait (hclock : user.getTicks.isSome) {later : List (Op × List MQTTOutput)}
    (h : Steps (Waits user due interval) c later c') (hbase : BaseInvariant c)
    (hconfined : ConnectConfined c) (hinv : AwaitsPing due interval c) :
    (∃ entry ∈ later, ReportsPingTimeout entry.2) ∨
      BaseInvariant c' ∧ ConnectConfined c' ∧ AwaitsPing due interval c' := by
  induction h with
  | refl => exact Or.inr ⟨hbase, hconfined, hinv⟩
  | @cons start middle finish first rest hwaits _ ih =>
      obtain ⟨op, outputs, rfl, hexecutes⟩ : ∃ op outputs, first = [(op, outputs)] ∧
          Executes user start first middle := by
        cases hwaits with
        | step hexecutes => exact ⟨_, _, rfl, hexecutes⟩
      rcases Executes.awaits_ping hclock hbase hconfined hinv hwaits with hreports | ⟨hkept, -⟩
      · exact Or.inl ⟨_, List.mem_append_left _ (List.mem_singleton_self _), hreports⟩
      · refine (ih (hexecutes.base_invariant hbase)
          (hexecutes.confined hbase hconfined) hkept).imp_left ?_
        rintro ⟨entry, hmem, hreports⟩
        exact ⟨entry, List.mem_append_right _ hmem, hreports⟩

/-- PINGREQ is sent, recorded at a tick count, and no PINGRESP is handled afterwards. As long as
every packet sent meanwhile starts the keep-alive interval early enough for it to end by the time
the answer is due, and `MQTT_Periodic` is called within `2 ^ 32` ticks, the first call of
`MQTT_Periodic` at or after that time reports the timeout unless it has been reported before. -/
theorem ping_timeout_reported (user : MQTTInitParams W) (memory : MQTTContext)
    (hclock : user.getTicks.isSome) {history later : List (Op × List MQTTOutput)}
    {c c₁ c₂ c₃ : MQTTContext} {now now' : UInt64} {outputs outputs' : List MQTTOutput}
    (h : Run user memory history c) (hping : Executes user c [(.periodic now, outputs)] c₁)
    (hsent : (pingReqPacket, pingReqPacket.length) ∈ sends outputs)
    (hconnected : c₁.connectionState = .connected) (hnonzero : c₁.lastSentMessageTimestamp ≠ 0) :
    let due := c₁.lastSentMessageTimestamp.toNat + c₁.pingRequestTimeoutTicks.toNat
    Steps (Waits user due c₁.keepAliveActualIntervalTicks) c₁ later c₂ →
    Waits user due c₁.keepAliveActualIntervalTicks c₂ [(.periodic now', outputs')] c₃ →
    due ≤ now'.toNat →
    (∃ entry ∈ later, ReportsPingTimeout entry.2) ∨ ReportsPingTimeout outputs' := by
  intro due hlater hpoll hdue
  obtain ⟨hbase, hconfined⟩ := h.confined
  rcases steps_wait hclock hlater (hping.base_invariant hbase) (hping.confined hbase hconfined)
    (hping.ping_sent hsent hconnected hnonzero) with hreports | ⟨hbase₂, hconfined₂, hwaits⟩
  · exact Or.inl hreports
  · rcases Executes.awaits_ping hclock hbase₂ hconfined₂ hwaits hpoll with hreports | ⟨-, hearly⟩
    · exact Or.inr hreports
    · exact absurd (hearly now' rfl) (Nat.not_lt.mpr hdue)

/-- A connection on which nothing is sent until the keep-alive interval has passed. -/
def quietConnection : List (Bench × Op) :=
  [(⟨1, 10, 100, false⟩, .connect benchConnect),
    (⟨2, 11, 100, false⟩, .parseReceivedData acceptingConnACK)]

/-- PINGREQ is sent at tick 2000. -/
def pinged : Session Bench :=
  (mqttPeriodic benchUser 2000
    ⟨(replayed benchUser quietConnection (mqttInit blankContext)).2, ⟨1, 2000, 100, false⟩, []⟩).1

/-- The answer is due at tick 2500, but a publish at tick 2100 starts the keep-alive interval of
1000 ticks, and the call of `MQTT_Periodic` at tick 2500 reports nothing. -/
theorem publish_hides_ping_timeout :
    ∃ history c outputs c₁ later c₂ outputs' c₃,
      Run benchUser blankContext history c ∧
      Executes benchUser c [(.periodic 2000, outputs)] c₁ ∧
      (pingReqPacket, pingReqPacket.length) ∈ sends outputs ∧
      c₁.connectionState = .connected ∧ c₁.lastSentMessageTimestamp = 2000 ∧
      c₁.pingRequestTimeoutTicks = 500 ∧
      Executes benchUser c₁ [(.publish benchPublish, later)] c₂ ∧
      c₂.connectionState = .connected ∧
      Executes benchUser c₂ [(.periodic 2500, outputs')] c₃ ∧
      c₃.connectionState = .connected ∧
      handledPackets (later ++ outputs') = [] ∧
      ¬ ReportsPingTimeout (later ++ outputs') := by
  have hrun : Run benchUser blankContext _ _ :=
    run_of_replayed (show (replay benchUser quietConnection _).isSome from rfl)
  exact ⟨_, _, pinged.outputs, pinged.context, _, _, _, _, hrun, .call ⟨1, 2000, 100, false⟩ rfl,
    by decide +kernel, by decide +kernel, by decide +kernel, by decide +kernel,
    .call ⟨1, 2100, 100, false⟩ rfl, by decide +kernel, .call ⟨1, 2500, 100, false⟩ rfl,
    by decide +kernel, by decide +kernel, by decide +kernel⟩

/-- A connection with a keep-alive interval of 300 ticks. -/
def lively : MQTTContext :=
  (replayed benchUser
    [(⟨1, 10, 100, false⟩,
        .connect { benchConnect with keepAliveActualIntervalTicks := 300 }),
      (⟨2, 11, 100, false⟩, .parseReceivedData acceptingConnACK)] (mqttInit blankContext)).2

/-- PINGREQ is sent on it at tick 2000. -/
def livelyPinged : Session Bench :=
  (mqttPeriodic benchUser 2000 ⟨lively, ⟨3, 2000, 100, false⟩, []⟩).1

/-- A packet is published at tick 2100. -/
def livelyPublished : Session Bench :=
  (mqttPublish benchUser benchPublish ⟨livelyPinged.context, ⟨4, 2100, 100, false⟩, []⟩).2

/-- A publish at tick 2100 starts the keep-alive interval early enough, and the timeout is reported
at tick 2500. -/
theorem ping_timeout_reported_published :
    ∃ c outputs c', Executes benchUser c [(.periodic 2500, outputs)] c' ∧
      ReportsPingTimeout outputs := by
  have hrun : Run benchUser blankContext _ lively :=
    run_of_replayed (show (replay benchUser _ (mqttInit blankContext)).isSome from rfl)
  have hping : Executes benchUser lively [(.periodic 2000, livelyPinged.outputs)]
      livelyPinged.context := .call ⟨3, 2000, 100, false⟩ rfl
  have hpublish : Executes benchUser livelyPinged.context
      [(.publish benchPublish, livelyPublished.outputs)] livelyPublished.context :=
    .call ⟨4, 2100, 100, false⟩ rfl
  have hlast : Executes benchUser livelyPublished.context [(.periodic 2500, _)] _ :=
    .call ⟨5, 2500, 100, false⟩ rfl
  have hpoll : ∀ now, (Op.periodic 2500).Polls now →
      livelyPublished.context.lastSentMessageTimestamp ≤ now ∧
        now.toNat < livelyPublished.context.lastSentMessageTimestamp.toNat + 2 ^ 32 := by
    rintro now rfl
    decide +kernel
  have hwaits : Waits benchUser 2500 300 livelyPinged.context
      [(.publish benchPublish, livelyPublished.outputs)] livelyPublished.context :=
    .step hpublish (by decide +kernel) (by decide +kernel) (by decide +kernel) fun _ => False.elim
  have hquiet : ¬ ∃ entry ∈ [(Op.publish benchPublish, livelyPublished.outputs)],
      ReportsPingTimeout entry.2 := by
    decide +kernel
  refine ⟨_, _, _, hlast, (ping_timeout_reported benchUser blankContext rfl hrun hping
    (by decide +kernel) (by decide +kernel) (by decide +kernel) (.single hwaits)
    (.step hlast (by decide +kernel) (by decide +kernel) (by decide +kernel) hpoll)
    (by decide +kernel)).resolve_left hquiet⟩

end TivaAws.Mqtt
