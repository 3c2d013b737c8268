import Mathlib.Data.List.Nodup
import TivaAws.BufferPool.Static
import TivaAws.Foundation.Labelled

/-!
# Exclusive buffers

In every interleaving of tasks a buffer of the pool has one holder at most: a task that has found
it, or a task it is outstanding with. The mark of a row is set exactly while the row has a holder.
Holders write into their data regions only, which contain no mark, so the marks can be trusted.
-/

namespace TivaAws.BufferPool

open ByteMemory Labelled

variable {T : Type*} [DecidableEq T] {pool : Nat} {s s' : System T}

/-! ## Marks -/

/-- A row is held by the task that has found it or has its buffer. -/
def System.Holds (pool : Nat) (s : System T) (task : T) (x : Nat) : Prop :=
  (∃ requested, s.calls task = .found requested x) ∨
    (task, dataLocationInBuffer (row pool x)) ∈ s.outstanding

/-- Every held row is marked and has one holder, and an outstanding buffer is the data of a row. -/
structure Exclusive (pool : Nat) (s : System T) : Prop where
  marked : ∀ x < numBuffers, s.memory (inUse (row pool x)) ≠ 0 ↔ ∃ task, s.Holds pool task x
  found_lt : ∀ task requested x, s.calls task = .found requested x → x < numBuffers
  outstanding : ∀ held ∈ s.outstanding, ∃ x < numBuffers,
    held.2 = dataLocationInBuffer (row pool x)
  distinct : (s.outstanding.map Prod.snd).Nodup
  unique : ∀ task task' requested requested' x, s.calls task = .found requested x →
    s.calls task' = .found requested' x → task = task'
  apart : ∀ task requested x task', s.calls task = .found requested x →
    (task', dataLocationInBuffer (row pool x)) ∉ s.outstanding

/-- Writing the mark of a row changes no other mark. -/
theorem write_mark (hpool : Placed pool) (memory : ByteMemory) {x y : Nat} (hx : x < numBuffers)
    (hy : y < numBuffers) (byte : UInt8) :
    memory.writeBytes (inUse (row pool x)) [byte] (inUse (row pool y)) =
      if y = x then byte else memory (inUse (row pool y)) := by
  by_cases hsame : y = x
  · rw [if_pos hsame, hsame, writeBytes_single]
  · rw [if_neg hsame]
    have hne : inUse (row pool y) ≠ inUse (row pool x) :=
      fun h => hsame (in_use_injective hpool hy hx h)
    rcases Nat.lt_or_gt_of_ne hne with hlt | hlt
    · exact writeBytes_below _ hlt
    · exact writeBytes_above _ hlt

/-- `BUFFERPOOL_Init` clears every mark. -/
theorem init_clears (hpool : Placed pool) (memory : ByteMemory) {x : Nat} (hx : x < numBuffers) :
    bufferPoolInit pool memory (inUse (row pool x)) = 0 := by
  have hloop : ∀ rounds, x < rounds → rounds ≤ numBuffers →
      (List.range rounds).foldl (fun memory x => memory.writeBytes (inUse (row pool x)) [0]) memory
        (inUse (row pool x)) = 0 := by
    intro rounds
    induction rounds with
    | zero => exact fun h => absurd h (Nat.not_lt_zero _)
    | succ rounds ih =>
        intro hlt hle
        rw [List.range_succ, List.foldl_append, List.foldl_cons, List.foldl_nil,
          write_mark hpool _ (Nat.lt_of_succ_le hle) hx]
        split_ifs with hlast
        · rfl
        · exact ih (by omega) (by omega)
  exact hloop numBuffers hx (le_refl _)

omit [DecidableEq T] in
theorem exclusive_start (hpool : Placed pool) (memory : ByteMemory) :
    Exclusive pool (start (T := T) pool memory) := by
  refine ⟨?_, ?_, ?_, List.nodup_nil, ?_, ?_⟩
  · intro x hx
    refine iff_of_false (not_not.mpr (init_clears hpool memory hx)) ?_
    rintro ⟨task, ⟨requested, hfound⟩ | hmem⟩
    · cases hfound
    · exact absurd hmem List.not_mem_nil
  · exact fun task requested x hfound => Call.noConfusion hfound
  · exact fun held hmem => absurd hmem List.not_mem_nil
  · exact fun task task' requested requested' x hfound => Call.noConfusion hfound
  · exact fun task requested x task' hfound => Call.noConfusion hfound

namespace Exclusive

variable (h : Exclusive pool s)

include h

omit [DecidableEq T] in
/-- A step that moves no holder and changes no mark. -/
theorem congr
    (hmarks : ∀ x < numBuffers, s'.memory (inUse (row pool x)) = s.memory (inUse (row pool x)))
    (hfound : ∀ task requested x,
      s'.calls task = .found requested x ↔ s.calls task = .found requested x)
    (houtstanding : s'.outstanding = s.outstanding) : Exclusive pool s' := by
  have hholds : ∀ task x, s'.Holds pool task x ↔ s.Holds pool task x := by
    intro task x
    unfold System.Holds
    rw [houtstanding]
    simp only [hfound]
  refine ⟨?_, ?_, ?_, ?_, ?_, ?_⟩
  · intro x hx
    rw [hmarks x hx, h.marked x hx]
    simp only [hholds]
  · exact fun task requested x hcall => h.found_lt task requested x ((hfound _ _ _).mp hcall)
  · rw [houtstanding]
    exact h.outstanding
  · rw [houtstanding]
    exact h.distinct
  · exact fun task task' requested requested' x hcall hcall' =>
      h.unique task task' requested requested' x ((hfound _ _ _).mp hcall)
        ((hfound _ _ _).mp hcall')
  · rw [houtstanding]
    exact fun task requested x task' hcall =>
      h.apart task requested x task' ((hfound _ _ _).mp hcall)

omit h in
/-- A task moves between two places that hold no row. -/
theorem found_update {task : T} {call : Call} (hold : ∀ requested x,
    s.calls task ≠ .found requested x) (hnew : ∀ requested x, call ≠ .found requested x)
    (other : T) (requested x : Nat) :
    Function.update s.calls task call other = .found requested x ↔
      s.calls other = .found requested x := by
  by_cases hother : other = task
  · rw [hother, Function.update_self]
    exact iff_of_false (hnew requested x) (hold requested x)
  · rw [Function.update_of_ne hother]

/-- A task marks a row that was free. -/
theorem examine_free (hpool : Placed pool) {task : T} {requested x : Nat} (hx : x < numBuffers)
    (hfree : s.memory (inUse (row pool x)) = 0)
    (hsearching : s.calls task = .searching requested x) :
    Exclusive pool
      { s with
        memory := s.memory.writeBytes (inUse (row pool x)) [1]
        calls := Function.update s.calls task (.found requested x) } := by
  -- A row that is not marked is held by nobody, so the task is the only one to find it.
  have hnone : ∀ other, ¬ s.Holds pool other x :=
    fun other hholds => (h.marked x hx).mpr ⟨other, hholds⟩ hfree
  have hcalls : ∀ {other length y}, Function.update s.calls task (.found requested x) other =
      .found length y → other = task ∧ y = x ∨ s.calls other = .found length y := by
    intro other length y hcall
    by_cases hother : other = task
    · rw [hother, Function.update_self] at hcall
      cases hcall
      exact Or.inl ⟨hother, rfl⟩
    · rw [Function.update_of_ne hother] at hcall
      exact Or.inr hcall
  -- Only the mark of the found row and the call of this task change.
  refine ⟨?_, ?_, h.outstanding, h.distinct, ?_, ?_⟩
  · intro y hy
    show writeBytes _ _ _ _ ≠ 0 ↔ _
    rw [write_mark hpool _ hx hy]
    by_cases hsame : y = x
    · rw [if_pos hsame, hsame]
      refine iff_of_true (by decide) ⟨task, Or.inl ⟨requested, ?_⟩⟩
      exact Function.update_self ..
    · rw [if_neg hsame, h.marked y hy]
      refine exists_congr fun other => or_congr ?_ Iff.rfl
      refine exists_congr fun length => ⟨fun hcall => ?_, fun hcall => ?_⟩
      · have hother : other ≠ task := by
          rintro rfl
          rw [hsearching] at hcall
          cases hcall
        exact (Function.update_of_ne hother ..).trans hcall
      · exact (hcalls hcall).resolve_left fun hand => hsame hand.2
  · intro other length y hcall
    rcases hcalls hcall with ⟨-, rfl⟩ | hcall
    · exact hx
    · exact h.found_lt other length y hcall
  · intro first second length length' y hfirst hsecond
    rcases hcalls hfirst with ⟨hself, hy⟩ | hearlier
    · rcases hcalls hsecond with ⟨hself', -⟩ | hearlier'
      · exact hself.trans hself'.symm
      · exact absurd (Or.inl ⟨length', hy ▸ hearlier'⟩) (hnone second)
    · rcases hcalls hsecond with ⟨-, hy⟩ | hearlier'
      · exact absurd (Or.inl ⟨length, hy ▸ hearlier⟩) (hnone first)
      · exact h.unique first second length length' y hearlier hearlier'
  · intro other length y third hcall
    rcases hcalls hcall with ⟨-, rfl⟩ | hcall
    · exact fun hmem => hnone third (Or.inr hmem)
    · exact h.apart other length y third hcall

/-- A task that has found a row answers with its buffer. -/
theorem answer_found (hpool : Placed pool) {task : T} {requested x : Nat}
    (hfound : s.calls task = .found requested x) :
    Exclusive pool
      { s with
        calls := Function.update s.calls task .idle
        outstanding := (task, dataLocationInBuffer (row pool x)) :: s.outstanding } := by
  have hx := h.found_lt task requested x hfound
  -- The row passes from the call of the task to its buffers, so it is held before and after.
  have hcalls : ∀ {other length y}, Function.update s.calls task .idle other = .found length y →
      other ≠ task ∧ s.calls other = .found length y := by
    intro other length y hcall
    by_cases hother : other = task
    · rw [hother, Function.update_self] at hcall
      cases hcall
    · rw [Function.update_of_ne hother] at hcall
      exact ⟨hother, hcall⟩
  refine ⟨?_, ?_, ?_, ?_, ?_, ?_⟩
  · intro y hy
    show s.memory _ ≠ 0 ↔ _
    rw [h.marked y hy]
    refine exists_congr fun other => ⟨?_, ?_⟩
    · rintro (⟨length, hcall⟩ | hmem)
      · by_cases hother : other = task
        · rw [hother, hfound] at hcall
          cases hcall
          exact Or.inr (hother ▸ List.mem_cons_self)
        · exact Or.inl ⟨length, (Function.update_of_ne hother ..).trans hcall⟩
      · exact Or.inr (List.mem_cons_of_mem _ hmem)
    · rintro (⟨length, hcall⟩ | hmem)
      · exact Or.inl ⟨length, (hcalls hcall).2⟩
      · rcases List.mem_cons.mp hmem with heq | hmem
        · obtain ⟨rfl, hdata⟩ := Prod.mk.inj heq
          rw [data_location_injective hpool hy hx hdata]
          exact Or.inl ⟨requested, hfound⟩
        · exact Or.inr hmem
  · exact fun other length y hcall => h.found_lt other length y (hcalls hcall).2
  · intro held hmem
    rcases List.mem_cons.mp hmem with rfl | hmem
    · exact ⟨x, hx, rfl⟩
    · exact h.outstanding held hmem
  · rw [List.map_cons, List.nodup_cons]
    refine ⟨?_, h.distinct⟩
    intro hmem
    obtain ⟨⟨other, buffer⟩, hheld, hbuffer⟩ := List.mem_map.mp hmem
    cases hbuffer
    exact h.apart task requested x other hfound hheld
  · exact fun first second length length' y hfirst hsecond =>
      h.unique first second length length' y (hcalls hfirst).2 (hcalls hsecond).2
  · intro other length y third hcall hmem
    obtain ⟨hother, hcall⟩ := hcalls hcall
    rcases List.mem_cons.mp hmem with heq | hmem
    · have hy := h.found_lt other length y hcall
      have hsame := data_location_injective hpool hy hx (Prod.mk.inj heq).2
      exact hother (h.unique other task length requested y hcall (hsame ▸ hfound))
    · exact h.apart other length y third hcall hmem

omit [DecidableEq T] in
/-- A buffer is outstanding with one task. -/
theorem holder_unique {task other : T} {buffer : Nat} (hmem : (task, buffer) ∈ s.outstanding)
    (hmem' : (other, buffer) ∈ s.outstanding) : other = task :=
  congrArg Prod.fst (List.inj_on_of_nodup_map h.distinct hmem' hmem rfl)

/-- A task returns a buffer that it has. -/
theorem give_back (hpool : Placed pool) {task : T} {x : Nat} (hx : x < numBuffers)
    (hmem : (task, dataLocationInBuffer (row pool x)) ∈ s.outstanding) :
    Exclusive pool
      { s with
        memory := bufferPoolReturnBuffer (dataLocationInBuffer (row pool x)) s.memory
        outstanding := s.outstanding.erase (task, dataLocationInBuffer (row pool x)) } := by
  have hnodup := List.Nodup.of_map _ h.distinct
  have herase : ∀ {held}, held ∈ s.outstanding.erase (task, dataLocationInBuffer (row pool x)) ↔
      held ≠ (task, dataLocationInBuffer (row pool x)) ∧ held ∈ s.outstanding :=
    hnodup.mem_erase_iff
  refine ⟨?_, h.found_lt, ?_, ?_, h.unique, ?_⟩
  · intro y hy
    show writeBytes s.memory (inUse (row pool x)) [0] _ ≠ 0 ↔ _
    rw [write_mark hpool _ hx hy]
    by_cases hsame : y = x
    · rw [if_pos hsame, hsame]
      refine iff_of_false (not_not.mpr rfl) ?_
      rintro ⟨other, ⟨length, hcall⟩ | hother⟩
      · exact h.apart other length x task hcall hmem
      · obtain ⟨hne, hother⟩ := herase.mp hother
        exact hne (by rw [h.holder_unique hmem hother])
    · rw [if_neg hsame, h.marked y hy]
      refine exists_congr fun other => or_congr Iff.rfl ?_
      refine ⟨fun hother => herase.mpr ⟨?_, hother⟩, fun hother => (herase.mp hother).2⟩
      exact fun heq => hsame (data_location_injective hpool hy hx (Prod.mk.inj heq).2)
  · exact fun held hheld => h.outstanding held (herase.mp hheld).2
  · exact (List.erase_sublist.map Prod.snd).nodup h.distinct
  · exact fun other length y third hcall hthird =>
      h.apart other length y third hcall (herase.mp hthird).2

end Exclusive

/-- Every step keeps the buffers exclusive. -/
theorem Step.exclusive (hpool : Placed pool) {events : List (Event T)}
    (hstep : Step pool s events s') (h : Exclusive pool s) : Exclusive pool s' := by
  cases hstep with
  | request task length hidle =>
      refine h.congr (fun _ _ => rfl) ?_ rfl
      refine Exclusive.found_update (fun requested x hcall => ?_) (fun requested x => ?_)
      · rw [hidle] at hcall
        cases hcall
      · unfold Call.enter
        split_ifs
        · exact Call.noConfusion
        · exact Call.noConfusion
  | @examine task requested x hsearching hx =>
      unfold BufferPool.examine
      by_cases hfree : s.memory (inUse (row pool x)) = 0
      · simp only [if_pos hfree, if_neg Bool.false_ne_true]
        exact h.examine_free hpool hx hfree hsearching
      · simp only [if_neg hfree, if_true]
        refine h.congr (fun _ _ => rfl) ?_ rfl
        refine Exclusive.found_update (fun length y hcall => ?_) (fun length y => Call.noConfusion)
        rw [hsearching] at hcall
        cases hcall
  | @answer task answer hanswer =>
      have hempty : (∀ requested x, s.calls task ≠ .found requested x) → answer = none →
          Exclusive pool
            { s with
              calls := Function.update s.calls task .idle
              outstanding := answer.toList.map (fun granted => (task, granted.1)) ++
                s.outstanding } := by
        rintro hcall rfl
        exact h.congr (fun _ _ => rfl)
          (Exclusive.found_update hcall fun length y => Call.noConfusion) rfl
      -- Only the call that has found a row hands one out.
      cases hcall : s.calls task with
      | idle =>
          rw [hcall] at hanswer
          cases hanswer
      | searching requested x =>
          rw [hcall, Call.answer] at hanswer
          split_ifs at hanswer
          exact hempty (by simp [hcall]) (Option.some.inj hanswer).symm
      | found requested x =>
          rw [hcall] at hanswer
          cases hanswer
          exact h.answer_found hpool hcall
      | tooLarge requested =>
          rw [hcall] at hanswer
          exact hempty (by simp [hcall]) (Option.some.inj hanswer).symm
  | @write task buffer offset byte hmem hoffset =>
      obtain ⟨x, hx, hbuffer⟩ := h.outstanding _ hmem
      have hbuffer' : buffer = dataLocationInBuffer (row pool x) := hbuffer
      refine h.congr ?_ (fun _ _ _ => Iff.rfl) rfl
      intro y hy
      -- A write inside a buffer reaches no mark.
      rcases in_use_outside hpool hx hy with hlt | hlt
      · exact writeBytes_below _ (by omega)
      · exact writeBytes_above _ (by rw [List.length_singleton]; omega)
  | @giveBack task buffer hidle hmem =>
      obtain ⟨x, hx, hbuffer⟩ := h.outstanding _ hmem
      have hbuffer' : buffer = dataLocationInBuffer (row pool x) := hbuffer
      subst hbuffer'
      exact h.give_back hpool hx hmem

/-! ## Answers -/

/-- The last request of a task in a history, with the events since. -/
def Asked (history : List (Event T)) (task : T) (length : Nat) (since : List (Event T)) : Prop :=
  (∃ before, history = before ++ .request task length :: since) ∧
    ∀ other, .request task other ∉ since

/-- An answer is right after a history: `NULL` if the request is larger than a buffer or each
buffer was in use when the task looked at it, or else the data location of a row with at least
the requested length. -/
def Justified (pool : Nat) (history : List (Event T)) : Event T → Prop
  | .answered task none => ∃ length since, Asked history task length since ∧
      (bufferSize < length ∨ ∀ x < numBuffers, .examined task x true ∈ since)
  | .answered task (some (buffer, reported)) => ∃ length since, Asked history task length since ∧
      length ≤ reported ∧ ∃ x < numBuffers, buffer = dataLocationInBuffer (row pool x)
  | _ => True

/-- What a call has behind it. -/
def Call.Traced (history : List (Event T)) (task : T) : Call → Prop
  | .idle => True
  | .searching requested x => ∃ since, Asked history task requested since ∧
      requested ≤ bufferSize ∧ ∀ y < x, .examined task y true ∈ since
  | .found requested _ => ∃ since, Asked history task requested since ∧ requested ≤ bufferSize
  | .tooLarge requested => ∃ since, Asked history task requested since ∧ bufferSize < requested

/-- Append an event to a history. -/
def record (history : List (Event T)) (event : Event T) : List (Event T) := history ++ [event]

variable {history : List (Event T)}

omit [DecidableEq T] in
theorem Asked.record {task : T} {length : Nat} {since : List (Event T)} {event : Event T}
    (h : Asked history task length since) (hevent : ∀ other, event ≠ .request task other) :
    Asked (record history event) task length (since ++ [event]) := by
  obtain ⟨⟨before, rfl⟩, hnone⟩ := h
  refine ⟨⟨before, ?_⟩, ?_⟩
  · simp [BufferPool.record]
  · intro other hmem
    rcases List.mem_append.mp hmem with hmem | hmem
    · exact hnone other hmem
    · exact hevent other (List.mem_singleton.mp hmem).symm

omit [DecidableEq T] in
theorem asked_request (history : List (Event T)) (task : T) (length : Nat) :
    Asked (record history (.request task length)) task length [] :=
  ⟨⟨history, rfl⟩, fun _ => List.not_mem_nil⟩

omit [DecidableEq T] in
/-- What a call has behind it stays behind it. -/
theorem Call.Traced.record {task : T} {call : Call} {event : Event T}
    (h : call.Traced history task) (hevent : ∀ other, event ≠ .request task other) :
    call.Traced (record history event) task := by
  cases call with
  | idle => trivial
  | searching requested x =>
      obtain ⟨since, hasked, hle, hseen⟩ := h
      exact ⟨_, hasked.record hevent, hle, fun y hy => List.mem_append_left _ (hseen y hy)⟩
  | found requested x =>
      obtain ⟨since, hasked, hle⟩ := h
      exact ⟨_, hasked.record hevent, hle⟩
  | tooLarge requested =>
      obtain ⟨since, hasked, hlt⟩ := h
      exact ⟨_, hasked.record hevent, hlt⟩

/-- One task moves and the event is not a request of another one. -/
theorem traced_update {calls : T → Call} (h : ∀ task, (calls task).Traced history task)
    {mover : T} {call : Call} {event : Event T}
    (hevent : ∀ task other, task ≠ mover → event ≠ .request task other)
    (hcall : call.Traced (record history event) mover) (task : T) :
    (Function.update calls mover call task).Traced (record history event) task := by
  by_cases htask : task = mover
  · rw [htask, Function.update_self]
    exact hcall
  · rw [Function.update_of_ne htask]
    exact (h task).record fun other => hevent task other htask

/-- Every answer is justified by the history before it. -/
theorem Step.justified {events : List (Event T)} (hstep : Step pool s events s')
    (h : Exclusive pool s) (htraced : ∀ task, (s.calls task).Traced history task) :
    Guarded record (Justified pool) history events ∧
      ∀ task, (s'.calls task).Traced (events.foldl record history) task := by
  cases hstep with
  | request task length hidle =>
      refine ⟨⟨trivial, trivial⟩, traced_update htraced ?_ ?_⟩
      · intro other requested hne heq
        cases heq
        exact hne rfl
      · unfold Call.enter
        split_ifs with hle
        · exact ⟨[], asked_request history task length, hle,
            fun y hy => absurd hy (Nat.not_lt_zero y)⟩
        · exact ⟨[], asked_request history task length, Nat.lt_of_not_le hle⟩
  | @examine task requested x hsearching hx =>
      have hbehind := htraced task
      rw [hsearching] at hbehind
      obtain ⟨since, hasked, hle, hseen⟩ := hbehind
      refine ⟨⟨trivial, trivial⟩, traced_update htraced (fun _ _ _ => nofun) ?_⟩
      have hasked' : Asked (BufferPool.record history
          (.examined task x (BufferPool.examine pool x s.memory).1)) task requested _ :=
        hasked.record fun _ => nofun
      cases hexamined : (BufferPool.examine pool x s.memory).1 with
      | false =>
          rw [hexamined] at hasked'
          exact ⟨_, hasked', hle⟩
      | true =>
          rw [hexamined] at hasked'
          refine ⟨_, hasked', hle, ?_⟩
          intro y hy
          -- The rows in front have been found in use before, and this one now.
          by_cases hlast : y = x
          · rw [hlast]
            exact List.mem_append_right _ (List.mem_singleton_self _)
          · exact List.mem_append_left _ (hseen y (by omega))
  | @answer task answer hanswer =>
      have hbehind := htraced task
      refine ⟨⟨?_, trivial⟩, traced_update htraced (fun _ _ _ => nofun) trivial⟩
      cases hcall : s.calls task with
      | idle =>
          rw [hcall] at hanswer
          cases hanswer
      -- The loop has gone through all rows.
      | searching requested x =>
          rw [hcall] at hbehind
          rw [hcall, Call.answer] at hanswer
          split_ifs at hanswer with hx
          cases hanswer
          obtain ⟨since, hasked, -, hseen⟩ := hbehind
          exact ⟨requested, since, hasked, Or.inr fun y hy => hseen y (by omega)⟩
      | found requested x =>
          rw [hcall] at hbehind hanswer
          cases hanswer
          obtain ⟨since, hasked, hle⟩ := hbehind
          exact ⟨requested, since, hasked, hle, x, h.found_lt task requested x hcall, rfl⟩
      | tooLarge requested =>
          rw [hcall] at hbehind hanswer
          cases hanswer
          obtain ⟨since, hasked, hlt⟩ := hbehind
          exact ⟨requested, since, hasked, Or.inl hlt⟩
  | write =>
      exact ⟨⟨trivial, trivial⟩, fun task => (htraced task).record fun _ => nofun⟩
  | giveBack =>
      exact ⟨⟨trivial, trivial⟩, fun task => (htraced task).record fun _ => nofun⟩

/-! ## Every interleaving -/

/-- An outstanding buffer: the aligned data region of one row, which it does not leave, and which
meets neither the metadata of a row nor another outstanding buffer. -/
structure Granted (pool : Nat) (s : System T) (buffer : Nat) : Prop where
  aligned : portByteAlignment ∣ buffer
  inRow : ∃ x < numBuffers, row pool x ≤ buffer ∧ buffer + bufferSize ≤ row pool x + rowSize
  metadata : ∀ y < numBuffers, inUse (row pool y) + sizeofBufferMetadata ≤ buffer ∨
    buffer + bufferSize ≤ inUse (row pool y)
  others : ∀ held ∈ s.outstanding, held.2 ≠ buffer →
    held.2 + bufferSize ≤ buffer ∨ buffer + bufferSize ≤ held.2

/-- A return clears the mark of the row of the buffer, keeps the marks of the other rows, and the
buffer alone is no longer outstanding. -/
structure FreesOnly (pool : Nat) (s : System T) (task : T) (buffer : Nat) (s' : System T) :
    Prop where
  freed : ∃ x < numBuffers, buffer = dataLocationInBuffer (row pool x) ∧
    s.memory (inUse (row pool x)) ≠ 0 ∧ s'.memory (inUse (row pool x)) = 0 ∧
    ∀ y < numBuffers, y ≠ x → s'.memory (inUse (row pool y)) = s.memory (inUse (row pool y))
  outstanding : ∀ held, held ∈ s'.outstanding ↔ held ∈ s.outstanding ∧ held ≠ (task, buffer)

omit [DecidableEq T] in
theorem Exclusive.granted (hpool : Placed pool) (h : Exclusive pool s) {held : T × Nat}
    (hmem : held ∈ s.outstanding) : Granted pool s held.2 := by
  obtain ⟨x, hx, hbuffer⟩ := h.outstanding held hmem
  obtain ⟨haligned, hbehind, hend⟩ := data_location_spec hpool hx
  rw [hbuffer]
  refine ⟨haligned, ⟨x, hx, by omega, hend⟩, ?_, ?_⟩
  · intro y hy
    have hone : sizeofBufferMetadata = 1 := rfl
    rcases in_use_outside hpool hx hy with hlt | hlt
    · omega
    · omega
  · intro other hother hne
    obtain ⟨y, hy, hdata⟩ := h.outstanding other hother
    rw [hdata] at hne ⊢
    refine data_disjoint hpool hy hx ?_
    rintro rfl
    exact hne rfl

theorem Exclusive.frees_only (hpool : Placed pool) (h : Exclusive pool s) {task : T} {buffer : Nat}
    (hstep : Step pool s [.returned task buffer] s') : FreesOnly pool s task buffer s' := by
  cases hstep with
  | giveBack _ hidle hmem =>
      obtain ⟨x, hx, hbuffer⟩ := h.outstanding _ hmem
      have hbuffer' : buffer = dataLocationInBuffer (row pool x) := hbuffer
      have hwritten :
          ∀ y < numBuffers, bufferPoolReturnBuffer buffer s.memory (inUse (row pool y)) =
          if y = x then 0 else s.memory (inUse (row pool y)) := by
        intro y hy
        rw [hbuffer']
        exact write_mark hpool s.memory hx hy 0
      refine ⟨⟨x, hx, hbuffer', (h.marked x hx).mpr ⟨task, Or.inr (hbuffer' ▸ hmem)⟩, ?_, ?_⟩, ?_⟩
      · exact (hwritten x hx).trans (if_pos rfl)
      · exact fun y hy hne => (hwritten y hy).trans (if_neg hne)
      · intro held
        have hnodup := List.Nodup.of_map _ h.distinct
        rw [hnodup.mem_erase_iff]
        exact And.comm

/-- In every interleaving of any tasks after `BUFFERPOOL_Init`, wherever the pool lies: no buffer is
outstanding twice, every outstanding buffer is an aligned region of its row apart from all metadata
and all other buffers, a row is marked exactly while a task has found it or has its buffer, every
answer is justified by what the task asked for and saw, and a return frees exactly the buffer that
is returned. -/
theorem buffers_exclusive (hpool : Placed pool) (memory : ByteMemory) {events : List (Event T)}
    (hrun : Steps (Step pool) (start pool memory) events s) :
    (s.outstanding.map Prod.snd).Nodup ∧
      (∀ held ∈ s.outstanding, Granted pool s held.2) ∧
      (∀ x < numBuffers, s.memory (inUse (row pool x)) ≠ 0 ↔ ∃ task, s.Holds pool task x) ∧
      Guarded record (Justified pool) [] events ∧
      ∀ task buffer s', Step pool s [.returned task buffer] s' →
        FreesOnly pool s task buffer s' := by
  have hinv := hrun.preserves_guarded
    (fun s history => Exclusive pool s ∧ ∀ task, (s.calls task).Traced history task)
    (fun hinv _ hstep =>
      ⟨(hstep.justified hinv.1 hinv.2).1, hstep.exclusive hpool hinv.1,
        (hstep.justified hinv.1 hinv.2).2⟩)
    (Guarded.trivial events ([] : List (Event T))) ⟨exclusive_start hpool memory, fun _ => trivial⟩
  obtain ⟨hjustified, hexclusive, -⟩ := hinv
  exact ⟨hexclusive.distinct, fun held hmem => hexclusive.granted hpool hmem, hexclusive.marked,
    hjustified, fun task buffer s' hstep => hexclusive.frees_only hpool hstep⟩

/-- A pool at an odd address from which one task has asked for a buffer. -/
def askedSystem : System Bool where
  memory := bufferPoolInit 0x20000003 fun _ => 7
  calls := Function.update (fun _ => .idle) true (.enter 100)
  outstanding := []

/-- The same pool after the task has found its first row free. -/
def foundSystem : System Bool where
  memory := (examine 0x20000003 0 askedSystem.memory).2
  calls := Function.update askedSystem.calls true (.found 100 0)
  outstanding := []

/-- The same pool after the task has got its buffer. -/
def grantedSystem : System Bool where
  memory := foundSystem.memory
  calls := Function.update foundSystem.calls true .idle
  outstanding := [(true, 0x20000008)]

theorem buffers_exclusive_odd_address : Granted 0x20000003 grantedSystem 0x20000008 := by
  have hrequest : Step 0x20000003 (start 0x20000003 fun _ => 7) [.request true 100] askedSystem :=
    .request true 100 rfl
  have hfree : (examine 0x20000003 0 askedSystem.memory).1 = false := by decide +kernel
  have hexamine : Step 0x20000003 askedSystem [.examined true 0 false] foundSystem := by
    have hstep : Step 0x20000003 askedSystem [.examined true 0 _] _ :=
      .examine true (show askedSystem.calls true = .searching 100 0 from rfl) (by decide)
    rw [hfree] at hstep
    exact hstep
  have hanswer : Step 0x20000003 foundSystem [.answered true (some (0x20000008, bufferSize))]
      grantedSystem :=
    .answer true rfl
  have hrun := Steps.cons hrequest (.cons hexamine (.single hanswer))
  exact (buffers_exclusive (show Placed 0x20000003 by unfold Placed; decide) _ hrun).2.1
    (true, 0x20000008) (List.mem_singleton_self _)

end TivaAws.BufferPool
