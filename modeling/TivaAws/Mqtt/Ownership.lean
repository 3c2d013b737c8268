import TivaAws.Foundation.Ledger
import TivaAws.Mqtt.Replay

/-!
# Ownership of buffers

Who has the buffers of the pool. The ledger records what the calls of the library do to buffers:
one is obtained from the pool, lent to a user whose publish callback takes it, or returned to the
pool. A context holds the buffers on its Tx list and the Rx buffer. In every run with an honest pool
and a user that returns only what it was lent, the books balance after every operation.
-/

namespace TivaAws.Mqtt

open Labelled

variable {W : Type} {user : MQTTInitParams W} {op : Op} {c c' : MQTTContext}
  {labels : List MQTTOutput} {l : Ledger MQTTBufferHandle}

/-! ## Moves -/

/-- What an output does to the ownership of a buffer. -/
def MQTTOutput.move : MQTTOutput → Option (Move MQTTBufferHandle)
  | .obtained handle => some (.obtain handle)
  | .taken handle => some (.lend handle)
  | .returned handle => some (.release handle)
  | _ => none

/-- The moves of buffers among outputs. -/
def moves (outputs : List MQTTOutput) : List (Move MQTTBufferHandle) :=
  outputs.filterMap MQTTOutput.move

/-- The handles of the buffers a context holds: the Tx list and the Rx buffer. -/
def MQTTContext.places (context : MQTTContext) : List MQTTBufferHandle :=
  context.txBufferList.map MQTTBuffer.handle ++ context.rxHandle.toList

@[simp] theorem moves_nil : moves [] = [] := rfl

@[simp] theorem moves_append (first second : List MQTTOutput) :
    moves (first ++ second) = moves first ++ moves second :=
  List.filterMap_append

@[simp] theorem moves_obtained (handle : MQTTBufferHandle) (rest : List MQTTOutput) :
    moves (.obtained handle :: rest) = .obtain handle :: moves rest := rfl

@[simp] theorem moves_returned (handle : MQTTBufferHandle) (rest : List MQTTOutput) :
    moves (.returned handle :: rest) = .release handle :: moves rest := rfl

@[simp] theorem moves_access (offset count : Nat) (rest : List MQTTOutput) :
    moves (.access offset count :: rest) = moves rest := rfl

@[simp] theorem moves_handled (packet : List UInt8) (rest : List MQTTOutput) :
    moves (.handled packet :: rest) = moves rest := rfl

@[simp] theorem moves_taken (handle : MQTTBufferHandle) (rest : List MQTTOutput) :
    moves (.taken handle :: rest) = .lend handle :: moves rest := rfl

theorem moves_quiet {output : MQTTOutput} (h : output.IsQuiet) : moves [output] = [] := by
  cases output with
  | refused => rfl
  | publishCallback => rfl
  | access => rfl
  | handled => rfl
  | event => rfl
  | eventCallback => rfl
  | obtained => exact absurd h id
  | returned => exact absurd h id
  | taken => exact absurd h id
  | ticks => exact absurd h id
  | sent => exact absurd h id

@[simp] theorem moves_reported (event : MQTTEvent) (result : Bool) :
    moves (user.reported event result) = [] := by
  unfold MQTTInitParams.reported
  split_ifs
  · rfl
  · rfl

@[simp] theorem moves_clock (tickCount : UInt64) : moves (user.clock tickCount) = [] := by
  unfold MQTTInitParams.clock
  split_ifs
  · rfl
  · rfl

@[simp] theorem moves_transmitted (data : List UInt8) (count : Nat) (tickCount : UInt64) :
    moves (user.transmitted data count tickCount) = [] := by
  unfold MQTTInitParams.transmitted
  show moves (if _ then _ else _) = []
  split_ifs
  · exact moves_clock tickCount
  · rfl

@[simp] theorem moves_returns (context : MQTTContext) :
    moves context.returns = context.places.map .release := by
  unfold MQTTContext.returns MQTTContext.places moves
  rw [List.filterMap_append, List.filterMap_map, List.filterMap_map, List.map_append,
    List.map_map]
  congr 1
  · exact congrFun (List.filterMap_eq_map (f := Move.release ∘ MQTTBuffer.handle)) _
  · exact congrFun (List.filterMap_eq_map (f := Move.release)) _

/-! ## Places -/

/-- Unlinking a buffer erases its handle. -/
theorem map_handle_eraseP (buffers : List MQTTBuffer) (handle : MQTTBufferHandle) :
    (buffers.eraseP fun buffer => buffer.handle == handle).map MQTTBuffer.handle =
      (buffers.map MQTTBuffer.handle).erase handle := by
  induction buffers with
  | nil => rfl
  | cons buffer rest ih =>
      by_cases hhandle : buffer.handle = handle
      · simp [hhandle]
      · simp [hhandle, ih]

/-- Unlinking a buffer of the Tx list frees one place. -/
theorem places_unlink {buffer : MQTTBuffer} (hmem : buffer ∈ c.txBufferList) :
    c.places.Perm (buffer.handle :: (c.unlink buffer.handle).places) := by
  have hhandle : buffer.handle ∈ c.txBufferList.map MQTTBuffer.handle :=
    List.mem_map_of_mem hmem
  have hsplit := (List.perm_cons_erase hhandle).append_right c.rxHandle.toList
  rw [← map_handle_eraseP] at hsplit
  exact hsplit

/-- What is not at any place cannot be unlinked. -/
theorem unlink_of_not_mem {handle : MQTTBufferHandle}
    (h : handle ∉ c.txBufferList.map MQTTBuffer.handle) : c.unlink handle = c := by
  have hsame : (c.txBufferList.eraseP fun buffer => buffer.handle == handle) =
      c.txBufferList := by
    refine List.eraseP_of_forall_not ?_
    intro buffer hmem hhandle
    exact h (List.mem_map.mpr ⟨buffer, hmem, by simpa using hhandle⟩)
  unfold MQTTContext.unlink
  rw [hsame]

/-- An address belongs to one buffer, so a buffer in the middle of the list is unlinked there. -/
theorem unlink_middle {before after : List MQTTBuffer} {request : MQTTBuffer}
    (hlist : c.txBufferList = before ++ request :: after)
    (hdistinct : (c.txBufferList.map MQTTBuffer.handle).Nodup) :
    c.unlink request.handle = { c with txBufferList := before ++ after } := by
  have hother : ∀ buffer ∈ before, ¬ ((buffer.handle == request.handle) = true) := by
    intro buffer hmem heq
    rw [hlist, List.map_append, List.map_cons] at hdistinct
    refine (List.nodup_append.mp hdistinct).2.2 _ (List.mem_map_of_mem hmem) _
      List.mem_cons_self ?_
    exact beq_iff_eq.mp heq
  unfold MQTTContext.unlink
  have herase : c.txBufferList.eraseP (fun buffer => buffer.handle == request.handle) =
      before ++ after := by
    rw [hlist, List.eraseP_append_right _ hother]
    exact congrArg (before ++ ·) (List.eraseP_cons_of_pos (beq_self_eq_true request.handle))
  rw [herase]

@[simp] theorem places_reset (context : MQTTContext) : context.reset.places = [] := rfl

theorem places_rx_some {rxBuffer : MQTTBuffer} (h : c.rxBuffer = some rxBuffer) :
    c.places = c.txBufferList.map MQTTBuffer.handle ++ [rxBuffer.handle] := by
  simp [MQTTContext.places, MQTTContext.rxHandle, h]

theorem places_rx_none (h : c.rxBuffer = none) :
    c.places = c.txBufferList.map MQTTBuffer.handle := by
  simp [MQTTContext.places, MQTTContext.rxHandle, h]

/-- Stamping a buffer moves no buffer. -/
theorem places_store_tx_buffer (buffer : MQTTBuffer) :
    (storeTxBuffer buffer c).places = c.places := by
  have hhandles : (storeTxBuffer buffer c).txBufferList.map MQTTBuffer.handle =
      c.txBufferList.map MQTTBuffer.handle := by
    unfold storeTxBuffer
    rw [List.map_map]
    refine List.map_congr_left ?_
    intro other _
    show MQTTBuffer.handle (if _ then _ else _) = _
    split_ifs with hhandle
    · exact hhandle.symm
    · rfl
  unfold MQTTContext.places
  rw [hhandles]
  rfl

/-! ## Transitions keep the books -/

/-- Every transition other than the user's own return keeps the books balanced and releases only
what is outstanding. -/
theorem Transition.balanced (h : Transition user op c labels c')
    (hop : ∀ handle, op ≠ .returnBuffer handle) (hbalanced : l.Balanced c.places)
    (hhonest : Guarded Ledger.record Ledger.Honest l (moves labels)) :
    Guarded Ledger.record Ledger.Lawful l (moves labels) ∧
      ((moves labels).foldl Ledger.record l).Balanced c'.places := by
  cases h with
  | quiet hquiet =>
      rw [moves_quiet hquiet]
      exact ⟨trivial, hbalanced⟩
  | configure => exact ⟨trivial, hbalanced⟩
  -- A buffer that is obtained goes to the Tx list.
  | connect buffer t t' =>
      simp only [moves_obtained, moves_append, moves_clock, moves_transmitted,
        List.append_nil] at hhonest ⊢
      exact ⟨⟨trivial, trivial⟩, hbalanced.obtain hhonest.1⟩
  | request buffer t t' =>
      simp only [moves_obtained, moves_append, moves_clock, moves_transmitted,
        List.append_nil] at hhonest ⊢
      exact ⟨⟨trivial, trivial⟩, hbalanced.obtain hhonest.1⟩
  -- A buffer that is obtained and given back in the same transition.
  | transient buffer count t t' =>
      simp only [moves_obtained, moves_append, moves_clock, moves_transmitted,
        List.nil_append, moves_returned, moves_nil] at hhonest ⊢
      obtain ⟨hlawful, hreleased⟩ := (hbalanced.obtain hhonest.1).release
      refine ⟨⟨trivial, hlawful, trivial⟩, ?_⟩
      split_ifs
      · exact hreleased
      · exact hreleased
  | send data count t =>
      rw [moves_transmitted]
      refine ⟨trivial, ?_⟩
      split_ifs
      · exact hbalanced
      · exact hbalanced
  | ping now t t' =>
      rw [moves_append, moves_transmitted, moves_clock]
      exact ⟨trivial, hbalanced⟩
  | pong t =>
      simp only [moves_handled, moves_access, moves_clock]
      exact ⟨trivial, hbalanced⟩
  | pingTimedOut now result =>
      rw [moves_reported]
      exact ⟨trivial, hbalanced⟩
  | elapse => exact ⟨trivial, hbalanced⟩
  | store => exact ⟨trivial, hbalanced⟩
  | remove => exact ⟨trivial, hbalanced⟩
  | stamp buffer now recordedTickCount timeoutTicks =>
      rw [places_store_tx_buffer]
      exact ⟨trivial, hbalanced⟩
  | settle buffer event result hstate hmem =>
      rw [moves_append, moves_reported]
      obtain ⟨hlawful, hreleased⟩ := (hbalanced.perm (places_unlink hmem)).release
      exact ⟨⟨hlawful, trivial⟩, hreleased⟩
  | accept buffer result t hreceives hstate hmem =>
      rw [moves_append, moves_reported, moves_returned, moves_clock]
      obtain ⟨hlawful, hreleased⟩ := (hbalanced.perm (places_unlink hmem)).release
      exact ⟨⟨hlawful, trivial⟩, hreleased⟩
  -- All buffers that the context holds are returned when a connection ends.
  | drop reason result =>
      rw [moves_append, moves_returns, moves_reported, List.append_nil]
      exact Ledger.Balanced.release_all (by simpa using hbalanced)
  | refuse buffer reason result notices hreceives hstate hmem hconnect hnotices =>
      have hquiet : moves notices = [] := by
        rcases hnotices with rfl | ⟨returnCode, result', -, rfl⟩
        · rfl
        · exact moves_reported _ _
      rw [moves_append, hquiet, moves_returned, moves_append, moves_returns, moves_reported,
        List.append_nil]
      have hplaces : l.Balanced ((buffer.handle :: (c.unlink buffer.handle).places) ++
          c.reset.places) := by
        simpa using hbalanced.perm (places_unlink hmem)
      exact hplaces.release_all
  | leave count t result =>
      rw [moves_append, moves_transmitted, moves_append, moves_reported, moves_returns]
      have hplaces : l.Balanced (c.places ++ []) := by simpa using hbalanced
      obtain ⟨hlawful, hreleased⟩ := hplaces.release_all
      refine ⟨hlawful, ?_⟩
      split_ifs
      · exact hreleased
      · exact hreleased
  | idle =>
      rw [moves_returns]
      exact Ledger.Balanced.release_all (by simpa using hbalanced)
  | receive hreceives hstate hframe hhandle =>
      refine ⟨trivial, ?_⟩
      have hplaces : c'.places = c.places := by
        unfold MQTTContext.places
        rw [hhandle, hframe]
      rw [hplaces]
      exact hbalanced
  | obtainRx rxBuffer hreceives hstate hrx hframe =>
      refine ⟨⟨trivial, trivial⟩, ?_⟩
      have hplaces : c'.places = c.txBufferList.map MQTTBuffer.handle ++ [rxBuffer.handle] := by
        rw [hframe]
        rfl
      rw [hplaces]
      rw [places_rx_none hrx] at hbalanced
      exact (hbalanced.obtain hhonest.1).perm (List.perm_append_singleton _ _).symm
  | releaseRx rxBuffer hreceives hstate hrx =>
      rw [places_rx_some hrx] at hbalanced
      -- The Rx buffer is not on the Tx list as well.
      have hunlinked : c.unlink rxBuffer.handle = c :=
        unlink_of_not_mem fun hmem =>
          (List.nodup_append.mp hbalanced.places_nodup).2.2 _ hmem _ List.mem_cons_self rfl
      obtain ⟨hlawful, hreleased⟩ :=
        (hbalanced.perm (List.perm_append_singleton _ _)).release
      rw [hunlinked]
      refine ⟨⟨hlawful, trivial⟩, ?_⟩
      rw [places_rx_none rfl]
      exact hreleased
  | takeRx rxBuffer hreceives hstate hrx =>
      rw [places_rx_some hrx] at hbalanced
      obtain ⟨hlawful, hlent⟩ := (hbalanced.perm (List.perm_append_singleton _ _)).lend
      refine ⟨⟨hlawful, trivial⟩, ?_⟩
      rw [places_rx_none rfl]
      exact hlent
  -- Only MQTT_ReturnBuffer gives back what the user has.
  | giveBack handle hgive => exact absurd hgive (hop handle)

/-! ## Operations keep the books -/

/-- Record the moves of an operation. -/
def recordEntry (l : Ledger MQTTBufferHandle) (entry : Op × List MQTTOutput) :
    Ledger MQTTBufferHandle :=
  (moves entry.2).foldl Ledger.record l

/-- What the user itself returns is among some buffers. -/
def Op.ReturnsFrom (buffers : List MQTTBufferHandle) : Op → Prop
  | .returnBuffer handle => handle ∈ buffers
  | _ => True

instance (buffers : List MQTTBufferHandle) : (op : Op) → Decidable (op.ReturnsFrom buffers)
  | .returnBuffer handle => inferInstanceAs (Decidable (handle ∈ buffers))
  | .connect _ | .disconnect | .subscribe _ | .unsubscribe _ | .publish _ | .periodic _
  | .parseReceivedData _ => isTrue trivial

/-- During the operation the pool is honest, and the user returns only a buffer it was lent. -/
def Disciplined (l : Ledger MQTTBufferHandle) (entry : Op × List MQTTOutput) : Prop :=
  Guarded Ledger.record Ledger.Honest l (moves entry.2) ∧ entry.1.ReturnsFrom l.lent

instance (l : Ledger MQTTBufferHandle) (entry : Op × List MQTTOutput) :
    Decidable (Disciplined l entry) :=
  inferInstanceAs (Decidable (_ ∧ _))

/-- During the operation only what is outstanding is returned. -/
def LawfulEntry (l : Ledger MQTTBufferHandle) (entry : Op × List MQTTOutput) : Prop :=
  Guarded Ledger.record Ledger.Lawful l (moves entry.2)

/-- What one operation other than the user's own return does is balanced. -/
theorem steps_balanced (h : Steps (Transition user op) c labels c')
    (hop : ∀ handle, op ≠ .returnBuffer handle) (hbalanced : l.Balanced c.places)
    (hhonest : Guarded Ledger.record Ledger.Honest l (moves labels)) :
    Guarded Ledger.record Ledger.Lawful l (moves labels) ∧
      ((moves labels).foldl Ledger.record l).Balanced c'.places := by
  refine (h.relabel MQTTOutput.move).preserves_guarded (fun c l => l.Balanced c.places) ?_
    hhonest hbalanced
  rintro c out c' l hbalanced hhonest ⟨labels, htransition, rfl⟩
  exact htransition.balanced hop hbalanced hhonest

/-- `MQTT_ReturnBuffer` returns the buffer and nothing else. -/
theorem Executes.return_buffer {handle : MQTTBufferHandle}
    (h : Executes user c [(.returnBuffer handle, labels)] c') :
    labels = [.returned handle] ∧ c' = c.unlink handle := by
  generalize hentry : [(Op.returnBuffer handle, labels)] = entry at h
  cases h with
  | @call op s w hexecute =>
      simp only [List.cons.injEq, Prod.mk.injEq, and_true] at hentry
      obtain ⟨rfl, rfl⟩ := hentry
      simp only [execute, Option.some.injEq] at hexecute
      subst hexecute
      exact ⟨rfl, rfl⟩

theorem Executes.balanced {entry : List (Op × List MQTTOutput)} (hinv : BaseInvariant c)
    (hbalanced : l.Balanced c.places) (hdisciplined : Guarded recordEntry Disciplined l entry)
    (h : Executes user c entry c') :
    Guarded recordEntry LawfulEntry l entry ∧ (entry.foldl recordEntry l).Balanced c'.places := by
  obtain ⟨op, labels, rfl, hsteps⟩ := h.steps hinv
  obtain ⟨⟨hhonest, hreturns⟩, -⟩ := hdisciplined
  by_cases hop : ∃ handle, op = .returnBuffer handle
  · obtain ⟨handle, rfl⟩ := hop
    have hlent : handle ∈ l.lent := hreturns
    obtain ⟨rfl, rfl⟩ := h.return_buffer
    obtain ⟨hlawful, hreturned⟩ := hbalanced.release_lent hlent
    have hplace : handle ∉ c.txBufferList.map MQTTBuffer.handle := fun hmem =>
      hbalanced.not_mem_of_lent hlent (List.mem_append_left _ hmem)
    rw [unlink_of_not_mem hplace]
    exact ⟨⟨⟨hlawful, trivial⟩, trivial⟩, hreturned⟩
  · obtain ⟨hlawful, hbalanced'⟩ :=
      steps_balanced hsteps (fun handle heq => hop ⟨handle, heq⟩) hbalanced hhonest
    exact ⟨⟨hlawful, trivial⟩, hbalanced'⟩

/-- The base invariant together with balanced books. -/
def Accounted (c : MQTTContext) (l : Ledger MQTTBufferHandle) : Prop :=
  BaseInvariant c ∧ l.Balanced c.places

theorem Run.accounted {memory : MQTTContext} {history : List (Op × List MQTTOutput)}
    (h : Run user memory history c)
    (hdisciplined : Guarded recordEntry Disciplined .empty history) :
    Guarded recordEntry LawfulEntry .empty history ∧
      Accounted c (history.foldl recordEntry .empty) := by
  refine Steps.preserves_guarded Accounted ?_ h hdisciplined
    ⟨base_invariant_init memory, Ledger.balanced_empty⟩
  intro c entry c' l hinv hguard hexecutes
  obtain ⟨hlawful, hbalanced⟩ := hexecutes.balanced hinv.1 hinv.2 hguard
  exact ⟨hlawful, hexecutes.base_invariant hinv.1, hbalanced⟩

/-! ## Invariants that rely on ownership -/

/-- What every transition keeps while all places are different, an operation keeps. -/
theorem steps_preserve {Inv : MQTTContext → Prop}
    (hstep : ∀ {c labels c'}, ReleasedWhenDisconnected c → c.places.Nodup → Inv c →
      Transition user op c labels c' → Inv c')
    (hop : ∀ handle, op ≠ .returnBuffer handle) (h : Steps (Transition user op) c labels c')
    (hreleased : ReleasedWhenDisconnected c) (hbalanced : l.Balanced c.places)
    (hhonest : Guarded Ledger.record Ledger.Honest l (moves labels)) (hinv : Inv c) : Inv c' := by
  induction h generalizing l with
  | refl => exact hinv
  | cons htransition _ ih =>
      rw [moves_append, guarded_append] at hhonest
      exact ih (htransition.released hreleased)
        (htransition.balanced hop hbalanced hhonest.1).2 hhonest.2
        (hstep hreleased hbalanced.places_nodup hinv htransition)

/-- What every transition of the allowed operations keeps while all places are different holds
in every run of allowed operations. -/
theorem Run.preserves {Inv : MQTTContext → Prop} {Allowed : Op → Prop}
    (hstep : ∀ {op c labels c'}, Allowed op → ReleasedWhenDisconnected c → c.places.Nodup →
      Inv c → (∀ handle, op ≠ .returnBuffer handle) → Transition user op c labels c' → Inv c')
    {memory : MQTTContext} {history : List (Op × List MQTTOutput)} (h : Run user memory history c)
    (hdisciplined : Guarded recordEntry Disciplined .empty history)
    (hallowed : ∀ entry ∈ history, Allowed entry.1) (hinit : Inv (mqttInit memory)) : Inv c := by
  suffices hkept : Guarded recordEntry LawfulEntry .empty history ∧
      (Accounted c (history.foldl recordEntry .empty) ∧ Inv c) from hkept.2.2
  refine Steps.preserves_guarded (fun c l => Accounted c l ∧ Inv c) ?_ h
    (hdisciplined.and_mem hallowed)
    ⟨⟨base_invariant_init memory, Ledger.balanced_empty⟩, hinit⟩
  rintro c entry c' l ⟨⟨hbase, hbalanced⟩, hinv⟩ hguard hexecutes
  have hdisciplined := hguard.imp fun _ _ hentry => hentry.1
  obtain ⟨hlawful, hbalanced'⟩ := hexecutes.balanced hbase hbalanced hdisciplined
  refine ⟨hlawful, ⟨hexecutes.base_invariant hbase, hbalanced'⟩, ?_⟩
  obtain ⟨op, labels, rfl, hsteps⟩ := hexecutes.steps hbase
  obtain ⟨⟨⟨hhonest, hreturns⟩, hallowed⟩, -⟩ := hguard
  by_cases hop : ∃ handle, op = .returnBuffer handle
  · obtain ⟨handle, rfl⟩ := hop
    rw [hexecutes.return_buffer.2, unlink_of_not_mem fun hmem =>
      hbalanced.not_mem_of_lent hreturns (List.mem_append_left _ hmem)]
    exact hinv
  · have hother : ∀ handle, op ≠ .returnBuffer handle := fun handle heq => hop ⟨handle, heq⟩
    exact steps_preserve (fun hreleased hnodup hinv =>
      hstep hallowed hreleased hnodup hinv hother) hother hsteps hbase.released hbalanced
      hhonest hinv

/-! ## Every buffer is accounted for -/

/-- In every run each buffer obtained from the pool is at one place at every moment, and only what
is outstanding is returned. Between operations the buffers that the user does not have are those of
the context, and a context that is not connected has none. -/
theorem buffers_accounted_for (user : MQTTInitParams W) (memory : MQTTContext)
    {history : List (Op × List MQTTOutput)} {c : MQTTContext} (h : Run user memory history c)
    (hdisciplined : Guarded recordEntry Disciplined .empty history) :
    let trace := history.flatMap fun entry => moves entry.2
    let l := trace.foldl Ledger.record .empty
    Guarded Ledger.record Ledger.Lawful .empty trace ∧
      (∀ past, past <+: trace →
        (past.foldl Ledger.record .empty).outstanding.Nodup ∧
          ∀ handle, (past.foldl Ledger.record .empty).outstanding.count handle +
            past.count (.release handle) = past.count (.obtain handle)) ∧
      l.held.Perm c.places ∧
      (c.connectionState = .notConnected → l.outstanding = l.lent) := by
  intro trace l
  obtain ⟨hentries, hbase, hbalanced⟩ := h.accounted hdisciplined
  have hlawful : Guarded Ledger.record Ledger.Lawful .empty trace := guarded_flatMap.mpr hentries
  have hhonest : Guarded Ledger.record Ledger.Honest .empty trace :=
    guarded_flatMap.mpr (hdisciplined.imp fun _ _ hentry => hentry.1)
  have hledger : history.foldl recordEntry .empty = l := (List.foldl_flatMap ..).symm
  rw [hledger] at hbalanced
  refine ⟨hlawful, ?_, hbalanced.held, ?_⟩
  · rintro past ⟨future, hsplit⟩
    rw [← hsplit, guarded_append] at hlawful hhonest
    refine ⟨Ledger.nodup_outstanding hhonest.1 hlawful.1 .nil, ?_⟩
    intro handle
    simpa [Ledger.empty, Ledger.outstanding] using Ledger.count_outstanding hlawful.1 handle
  · intro hidle
    have hnone : c.places = [] := by
      rw [places_rx_none (hbase.released hidle).boundary.2.2, (hbase.released hidle).txBufferList]
      rfl
    have hheld : l.held = [] := List.Perm.eq_nil (hnone ▸ hbalanced.held)
    rw [Ledger.outstanding, hheld, List.nil_append]

/-- A publish is received and taken, a request is left unanswered and the user disconnects before
it returns the buffer of the publish. -/
def takenPublish : List (Bench × Op) :=
  [(⟨1, 10, 100, false⟩, .connect benchConnect),
    (⟨2, 11, 100, false⟩, .parseReceivedData acceptingConnACK),
    (⟨1, 12, 100, true⟩, .parseReceivedData [controlPUBLISH, 4, 0, 1, 0x61, 0x62]),
    (⟨2, 13, 100, false⟩, .unsubscribe benchUnsubscribe),
    (⟨3, 14, 100, false⟩, .disconnect),
    (⟨3, 15, 100, false⟩, .returnBuffer 1)]

theorem buffers_accounted_for_taken_publish :
    ∃ history c, Run benchUser blankContext history c ∧
      Guarded Ledger.record Ledger.Lawful .empty
        (history.flatMap fun entry => moves entry.2) ∧
      (history.flatMap fun entry => moves entry.2).count (.obtain 1) = 2 := by
  have hrun : Run benchUser blankContext _ _ :=
    run_of_replayed (show (replay benchUser takenPublish _).isSome from rfl)
  refine ⟨_, _, hrun, (buffers_accounted_for benchUser blankContext hrun ?_).1, ?_⟩
  · decide +kernel
  · decide +kernel

end TivaAws.Mqtt
