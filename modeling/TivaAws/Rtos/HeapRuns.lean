import TivaAws.Rtos.Allocations

/-!
# Runs of the heap

The tasks allocate, store within their blocks and free them, in any order; between the two parts of
`vPortFree` other tasks may run. `step_spec` is what one event does, and the results are about every
sequence of events in which each task keeps to its own blocks.
-/

namespace TivaAws.Rtos

open ByteMemory Intervals Runs

/-! ## Model -/

/-- The allocator and the blocks that the application has. -/
structure Heap where
  state : HeapState
  live : List Allocation

/-- What a task does. -/
inductive HeapEvent where
  /-- `pvPortMalloc`. -/
  | malloc (xWantedSize : ℕ)
  /-- A write into a block. -/
  | store (pv offset : ℕ) (bytes : List UInt8)
  /-- `vPortFree` up to `vTaskSuspendAll`. -/
  | release (pv : ℕ)
  /-- The rest of `vPortFree`. -/
  | insert (pv : ℕ)
  deriving DecidableEq, Repr

namespace Heap

/-- Before the first call. -/
def start (memory : ByteMemory) : Heap := ⟨HeapState.start memory, []⟩

/-- The block at a pointer that `pvPortMalloc` has returned, as its links describe it. -/
def blockAt (pv : ℕ) (s : HeapState) : Interval :=
  ⟨pv - xHeapStructSize, clearBits (s.xBlockSize (pv - xHeapStructSize)) s.xBlockAllocatedBit⟩

/-- One event; `none` if the system stops at an assertion or a loop does not end. -/
def step (layout : HeapLayout) (h : Heap) : HeapEvent → Option Heap
  | .malloc xWantedSize => do
      let (pv, s) ← pvPortMalloc layout xWantedSize h.state
      if pv = 0 then pure ⟨s, h.live⟩
      else pure ⟨s, ⟨blockAt pv s, xWantedSize, false⟩ :: h.live⟩
  | .store pv offset bytes =>
      some ⟨{ h.state with memory := h.state.memory.writeBytes (pv + offset) bytes }, h.live⟩
  | .release pv => do
      let s ← vPortFreeRelease pv h.state
      pure ⟨s, h.live.map (Allocation.mark pv)⟩
  | .insert pv => do
      let s ← vPortFreeInsert layout pv h.state
      pure ⟨s, h.live.eraseP fun a => decide (a.pv = pv)⟩

/-- A task asks for a size of 32 bits, stores within what it asked for, frees what it has, and
completes what it began to free. -/
def Allowed (h : Heap) : HeapEvent → Prop
  | .malloc xWantedSize => xWantedSize < 2 ^ 32
  | .store pv offset bytes =>
      ∃ a ∈ h.live, a.pv = pv ∧ a.releasing = false ∧ offset + bytes.length ≤ a.xWantedSize
  | .release pv => ∃ a ∈ h.live, a.pv = pv ∧ a.releasing = false
  | .insert pv => ∃ a ∈ h.live, a.pv = pv ∧ a.releasing = true

instance (h : Heap) : (event : HeapEvent) → Decidable (h.Allowed event)
  | .malloc xWantedSize => inferInstanceAs (Decidable (xWantedSize < 2 ^ 32))
  | .store pv offset bytes =>
      inferInstanceAs (Decidable (∃ a ∈ h.live,
        a.pv = pv ∧ a.releasing = false ∧ offset + bytes.length ≤ a.xWantedSize))
  | .release pv => inferInstanceAs (Decidable (∃ a ∈ h.live, a.pv = pv ∧ a.releasing = false))
  | .insert pv => inferInstanceAs (Decidable (∃ a ∈ h.live, a.pv = pv ∧ a.releasing = true))

end Heap

/-- The pointer through which an event changes a block. -/
def HeapEvent.pointer : HeapEvent → Option ℕ
  | .malloc _ => none
  | .store pv _ _ => some pv
  | .release pv => some pv
  | .insert pv => some pv

/-! ## One event -/

namespace Heap

variable {layout : HeapLayout} {h h' : Heap} {event : HeapEvent} {a : Allocation}
  {memory : ByteMemory} {events later : List HeapEvent} {n pv : ℕ}

/-- The blocks divide the heap, and without initialisation there are none. -/
structure Inv (layout : HeapLayout) (h : Heap) : Prop where
  divided : ∃ free, HeapInv layout (ready layout h.state) free h.live
  none_before : h.state.pxEnd = 0 → h.live = []

/-- What other events leave of a block. -/
def Kept (h h' : Heap) (event : HeapEvent) : Prop :=
  ∀ a ∈ h.live, event.pointer ≠ some a.pv →
    a ∈ h'.live ∧ ∀ x ∈ a.bytes.numbers, h'.state.memory x = h.state.memory x

theorem inv_of_heapInv {free : List Interval} (hinv : HeapInv layout h.state free h.live) :
    Inv layout h := by
  have hbounds := layout.bounds
  have hend := hinv.chain.pxEnd
  have hne : h.state.pxEnd ≠ 0 := by omega
  refine ⟨⟨free, ?_⟩, fun hzero => absurd hzero hne⟩
  unfold ready
  rw [if_neg hne]
  exact hinv

theorem inv_start (layout : HeapLayout) (memory : ByteMemory) : Inv layout (start memory) := by
  obtain ⟨hchain, hfree, -, hbit⟩ := prvHeapInit_spec layout (HeapState.start memory)
  have hbounds := layout.bounds
  refine ⟨⟨[layout.region], hchain, hbit, Partition.whole ?_, hfree, List.forall_mem_nil _,
    List.forall_mem_nil _, List.forall_mem_nil _⟩, fun _ => rfl⟩
  unfold HeapLayout.region
  simp only
  omega

/-- With an allocated block the heap has been initialised. -/
theorem Inv.ready_eq (h_inv : Inv layout h) (ha : a ∈ h.live) : ready layout h.state = h.state :=
  if_neg fun hzero => by
    rw [h_inv.none_before hzero] at ha
    exact List.not_mem_nil ha

theorem Inv.started (h_inv : Inv layout h) (ha : a ∈ h.live) :
    ∃ free, HeapInv layout h.state free h.live := by
  obtain ⟨free, hinv⟩ := h_inv.divided
  rw [h_inv.ready_eq ha] at hinv
  exact ⟨free, hinv⟩

/-- The bytes of an allocation lie in its block, behind the links. -/
theorem bytes_subset {free : List Interval} {s : HeapState} {live : List Allocation}
    (hinv : HeapInv layout s free live) (ha : a ∈ live) : a.bytes.numbers ⊆ a.block.numbers := by
  intro x hx
  have hroom := hinv.room a ha
  have hlow : a.block.start + 8 ≤ x := hx.1
  have hhigh : x < a.block.start + 8 + a.xWantedSize := hx.2
  rw [Interval.mem_numbers]
  unfold Interval.stop
  omega

theorem step_spec (h_inv : Inv layout h) (hallowed : h.Allowed event) :
    ∃ h', step layout h event = some h' ∧ Inv layout h' ∧ Kept h h' event := by
  cases event with
  | malloc xWantedSize =>
      obtain ⟨free, hinv⟩ := h_inv.divided
      obtain ⟨pv, s', hmalloc, hanswer⟩ := pvPortMalloc_spec hinv hallowed
      have hstep : step layout h (.malloc xWantedSize) =
          if pv = 0 then some ⟨s', h.live⟩
          else some ⟨s', ⟨blockAt pv s', xWantedSize, false⟩ :: h.live⟩ := by
        rw [step, hmalloc]
        rfl
      rcases hanswer with ⟨rfl, rfl, -⟩ | ⟨-, block, free', rfl, hinv', hkept⟩
      · refine ⟨⟨_, h.live⟩, hstep.trans (if_pos rfl), inv_of_heapInv hinv, fun a ha _ => ⟨ha, ?_⟩⟩
        exact fun x _ => congrArg (HeapState.memory · x) (h_inv.ready_eq ha)
      · have hne : ¬ block.start + xHeapStructSize = 0 := Nat.succ_ne_zero _
        rw [if_neg hne] at hstep
        have hnew : (⟨block, xWantedSize, false⟩ : Allocation) ∈
            ⟨block, xWantedSize, false⟩ :: h.live := List.mem_cons_self
        have hlt := hinv'.size_lt hnew
        -- The size is read back from the block, without the bit that marks it as allocated.
        have hblock : blockAt (block.start + xHeapStructSize) s' = block := by
          have hsize := (hinv'.links _ hnew).2
          unfold blockAt
          rw [Nat.add_sub_cancel, hsize, hinv'.bit]
          unfold Allocation.word
          rw [if_neg Bool.false_ne_true, or_bit hlt, clearBits_bit hlt]
        rw [hblock] at hstep
        refine ⟨_, hstep, inv_of_heapInv hinv', fun a ha _ => ⟨List.mem_cons_of_mem _ ha, ?_⟩⟩
        rw [h_inv.ready_eq ha] at hkept hinv
        exact fun x hx => hkept x (hinv.apart_free ha (bytes_subset hinv ha hx))
  | store pv offset bytes =>
      obtain ⟨a, ha, rfl, -, hroom⟩ := hallowed
      obtain ⟨free, hinv⟩ := h_inv.started ha
      -- What is stored stays within the block.
      have hwrites : Writes a.bytes.numbers h.state
          { h.state with memory := h.state.memory.writeBytes (a.pv + offset) bytes } := by
        refine ⟨_, rfl, fun x hx => ?_⟩
        by_cases hlow : x < a.pv + offset
        · exact writeBytes_below _ hlow
        · refine writeBytes_above _ (Nat.le_of_not_lt fun hhigh => hx ⟨?_, ?_⟩)
          · show a.pv ≤ x
            omega
          · show x < a.pv + a.xWantedSize
            omega
      refine ⟨_, rfl, inv_of_heapInv (hinv.store ha hwrites),
        fun d hd hother => ⟨hd, fun x hx => ?_⟩⟩
      refine hwrites.kept fun hin => ?_
      exact hinv.apart_others ha hd (fun hda => hother (congrArg _ (congrArg _ hda.symm)))
        (bytes_subset hinv ha hin) (bytes_subset hinv hd hx)
  | release pv =>
      obtain ⟨a, ha, rfl, hnot⟩ := hallowed
      obtain ⟨free, hinv⟩ := h_inv.started ha
      obtain ⟨s', hrelease, hinv', hwrites⟩ := vPortFreeRelease_spec hinv ha hnot
      refine ⟨⟨s', _⟩, ?_, inv_of_heapInv hinv', fun d hd hother => ⟨?_, fun x hx => ?_⟩⟩
      · rw [step, hrelease]
        rfl
      · refine List.mem_map.mpr ⟨d, hd, ?_⟩
        unfold Allocation.mark
        exact if_neg fun hpv => hother (congrArg _ hpv.symm)
      · refine hwrites.kept fun hin => ?_
        exact hinv.apart_others ha hd (fun hda => hother (congrArg _ (congrArg _ hda.symm)))
          (hinv.cell_subset ha hin) (bytes_subset hinv hd hx)
  | insert pv =>
      obtain ⟨a, ha, rfl, hreleasing⟩ := hallowed
      obtain ⟨free, hinv⟩ := h_inv.started ha
      -- The allocation that is taken off the list is the one with this address.
      obtain ⟨first, front, back, hfront, hpv, hlive, herase⟩ :=
        List.exists_of_eraseP (p := fun d => decide (d.pv = a.pv)) ha (decide_eq_true rfl)
      have hfirst : first ∈ h.live := hlive ▸ List.mem_append_right front List.mem_cons_self
      obtain rfl : first = a := hinv.eq_of_pv ha hfirst (of_decide_eq_true hpv)
      have hinv' := hinv
      rw [hlive] at hinv'
      obtain ⟨s', hinsert, hgiven, hkept⟩ := vPortFreeInsert_spec hinv' hreleasing
      refine ⟨⟨s', front ++ back⟩, ?_, inv_of_heapInv hgiven,
        fun d hd hother => ⟨?_, fun x hx => ?_⟩⟩
      · rw [step, hinsert, herase]
        rfl
      · rw [hlive] at hd
        rcases List.mem_append.mp hd with hd | hd
        · exact List.mem_append_left back hd
        · rcases List.mem_cons.mp hd with rfl | hd
          · exact absurd rfl hother
          · exact List.mem_append_right front hd
      · refine hkept x fun hin => ?_
        have hxd := bytes_subset hinv hd hx
        rcases hin with hin | hin
        · exact hinv.apart_others ha hd (fun hda => hother (congrArg _ (congrArg _ hda.symm))) hin
            hxd
        · exact hinv.apart_free hd hxd hin

/-! ## Runs -/

/-- The state that a run which keeps the contract leads to. -/
theorem reached (hmet : Met (step layout) Allowed (start memory) events) :
    ∃ h, run (step layout) events (start memory) = some h ∧ Inv layout h :=
  run_of_met (Inv layout)
    (fun hinv hallowed => by
      obtain ⟨h', hstep, hinv', -⟩ := step_spec hinv hallowed
      exact ⟨h', hstep, hinv'⟩)
    (inv_start layout memory) hmet

theorem inv_of_run (hmet : Met (step layout) Allowed (start memory) events)
    (hrun : run (step layout) events (start memory) = some h) : Inv layout h := by
  obtain ⟨h', hrun', hinv⟩ := reached hmet
  cases hrun.symm.trans hrun'
  exact hinv

/-- What the application can rely on. -/
structure Safe (layout : HeapLayout) (h : Heap) : Prop where
  aligned : ∀ a ∈ h.live, 8 ∣ a.pv
  inside : ∀ a ∈ h.live, layout.ucHeap ≤ a.pv ∧
    a.pv + a.xWantedSize ≤ layout.ucHeap + configTotalHeapSize
  apart : h.live.Pairwise fun a b => a.bytes.Apart b.bytes
  overhead : ∀ a ∈ h.live, a.block.size ≤ a.xWantedSize + 31
  account : h.live ≠ [] →
    xPortGetFreeHeapSize h.state + total (blocksOf h.live) = layout.region.size

theorem Inv.safe (h_inv : Inv layout h) : Safe layout h := by
  have hbounds := layout.bounds
  obtain ⟨free, hinv⟩ := h_inv.divided
  have hbytes : ∀ a ∈ h.live, a.block.start + 8 = a.pv ∧ a.pv + a.xWantedSize ≤ a.block.stop := by
    intro a ha
    have hroom := hinv.room a ha
    refine ⟨rfl, ?_⟩
    show a.block.start + 8 + a.xWantedSize ≤ a.block.start + a.block.size
    omega
  refine ⟨fun a ha => ?_, fun a ha => ?_, ?_, fun a ha => (hinv.room a ha).2, fun hne => ?_⟩
  · have hdvd := (hinv.aligned _ (mem_blocksOf ha)).1
    have hpv := (hbytes a ha).1
    omega
  · have hwithin := hinv.within ha
    have hpv := hbytes a ha
    omega
  · refine (List.pairwise_map.mp hinv.partition.apart).imp_of_mem fun {a b} ha hb hapart => ?_
    have hpa := hbytes a ha
    have hpb := hbytes b hb
    have hstart : a.bytes.start = a.pv ∧ b.bytes.start = b.pv := ⟨rfl, rfl⟩
    have hstop : a.bytes.stop = a.pv + a.xWantedSize ∧ b.bytes.stop = b.pv + b.xWantedSize :=
      ⟨rfl, rfl⟩
    unfold Interval.Apart at hapart ⊢
    omega
  · obtain ⟨a, ha⟩ := List.exists_mem_of_ne_nil _ hne
    obtain ⟨free, hinv⟩ := h_inv.started ha
    rw [xPortGetFreeHeapSize, hinv.account]
    exact hinv.partition.total

/-- Whatever the tasks do with their own blocks, every call returns, and the blocks that the
application has lie aligned in the heap, apart from one another. -/
theorem heap_safe (layout : HeapLayout) (memory : ByteMemory) (events : List HeapEvent)
    (hmet : Met (step layout) Allowed (start memory) events) :
    ∃ h, run (step layout) events (start memory) = some h ∧ Safe layout h := by
  obtain ⟨h, hrun, hinv⟩ := reached hmet
  exact ⟨h, hrun, hinv.safe⟩

/-- `vPortFree` is its two parts one after the other. -/
theorem vPortFree_events (layout : HeapLayout) (h : Heap) (hpv : pv ≠ 0) :
    vPortFree layout pv h.state =
      (run (step layout) [.release pv, .insert pv] h).map Heap.state := by
  unfold vPortFree
  rw [if_pos hpv]
  simp only [run, step, Option.bind_eq_bind, Option.pure_def]
  cases vPortFreeRelease pv h.state with
  | none => rfl
  | some s =>
      simp only [Option.bind_some]
      cases vPortFreeInsert layout pv s with
      | none => rfl
      | some s' => rfl

/-- `vPortCalloc` is a request for the product, as far as 32 bits hold it, and a store of zeros. -/
theorem vPortCalloc_events (layout : HeapLayout) (h : Heap) (num itemSize : ℕ) {s : HeapState}
    (hmalloc : pvPortMalloc layout (itemSize * num % 2 ^ 32) h.state = some (pv, s))
    (hpv : pv ≠ 0) :
    vPortCalloc layout num itemSize h.state =
      (run (step layout) [.malloc (itemSize * num % 2 ^ 32),
        .store pv 0 (List.replicate (itemSize * num % 2 ^ 32) 0)] h).map fun h' =>
          (pv, h'.state) := by
  unfold vPortCalloc
  simp only [run, step, hmalloc, Option.bind_eq_bind, Option.bind_some, if_pos hpv, if_neg hpv]
  rfl

/-- A heap that is not aligned, and tasks that free a block while another one allocates. -/
def benchHeap : HeapLayout where
  ucHeap := 0x20000204
  xStart := 0x20000100
  ucHeap_pos := by decide
  ucHeap_fits := by decide
  xStart_apart := by decide

def benchEvents : List HeapEvent :=
  [.malloc 100, .malloc 20, .store 0x20000210 0 [1, 2, 3], .release 0x20000210, .malloc 200,
    .insert 0x20000210, .malloc 50]

theorem heap_safe_bench : ∃ h,
    run (step benchHeap) benchEvents (start fun _ => 0) = some h ∧ Safe benchHeap h :=
  heap_safe benchHeap (fun _ => 0) benchEvents (by decide +kernel)

/-- What events that leave a block alone keep, by induction on the events. -/
theorem kept_along (h_inv : Inv layout h) (hmet : Met (step layout) Allowed h later)
    (ha : a ∈ h.live) (hother : ∀ event ∈ later, event.pointer ≠ some a.pv) :
    ∃ h', run (step layout) later h = some h' ∧ a ∈ h'.live ∧
      ∀ x ∈ a.bytes.numbers, h'.state.memory x = h.state.memory x := by
  induction later generalizing h with
  | nil => exact ⟨h, rfl, ha, fun _ _ => rfl⟩
  | cons event rest ih =>
      obtain ⟨next, hnext, hinv, hkept⟩ := step_spec h_inv hmet.1
      obtain ⟨hmem, hbytes⟩ := hkept a ha (hother event List.mem_cons_self)
      obtain ⟨h', hrun, ha', hbytes'⟩ := ih hinv (hmet.2 next hnext) hmem fun e he =>
        hother e (List.mem_cons_of_mem event he)
      refine ⟨h', ?_, ha', fun x hx => (hbytes' x hx).trans (hbytes x hx)⟩
      show (step layout h event).bind (run (step layout) rest) = some h'
      rw [hnext]
      exact hrun

/-- What a task has stored in a block stays there, whatever happens to the other blocks, for as
long as the block is neither stored to nor freed. -/
theorem contents_kept (layout : HeapLayout) (memory : ByteMemory) (events later : List HeapEvent)
    (h : Heap) (a : Allocation)
    (hmet : Met (step layout) Allowed (start memory) (events ++ later))
    (hrun : run (step layout) events (start memory) = some h) (ha : a ∈ h.live)
    (hother : ∀ event ∈ later, event.pointer ≠ some a.pv) :
    ∃ h', run (step layout) (events ++ later) (start memory) = some h' ∧ a ∈ h'.live ∧
      readBytes h'.state.memory a.pv a.xWantedSize =
        readBytes h.state.memory a.pv a.xWantedSize := by
  have hinv := inv_of_run hmet.before hrun
  obtain ⟨h', hrun', ha', hbytes⟩ := kept_along hinv (hmet.after hrun) ha hother
  exact ⟨h', run_append_some hrun hrun', ha',
    readBytes_congr _ fun x hlow hhigh => hbytes x ⟨hlow, hhigh⟩⟩

/-- A task writes into its block before another one frees and allocates. -/
def benchStores : List HeapEvent := [.malloc 100, .malloc 20, .store 0x20000280 1 [7, 8]]

def benchOthers : List HeapEvent := [.release 0x20000210, .malloc 200, .insert 0x20000210]

theorem contents_kept_bench : ∃ h h',
    run (step benchHeap) benchStores (start fun _ => 0) = some h ∧
      run (step benchHeap) (benchStores ++ benchOthers) (start fun _ => 0) = some h' ∧
      readBytes h'.state.memory 0x20000280 20 = readBytes h.state.memory 0x20000280 20 := by
  have hlive : ∃ h ∈ run (step benchHeap) benchStores (start fun _ => 0),
      (⟨⟨0x20000278, 32⟩, 20, false⟩ : Allocation) ∈ h.live := by decide +kernel
  obtain ⟨h, hrun, ha⟩ := hlive
  obtain ⟨h', hrun', -, hbytes⟩ := contents_kept benchHeap (fun _ => 0) benchStores benchOthers h
    ⟨⟨0x20000278, 32⟩, 20, false⟩ (by decide +kernel) hrun ha (by decide)
  exact ⟨h, h', hrun, hrun', hbytes⟩

/-! ## When a request fails -/

/-- Addresses in a row that no block of the application has. -/
def Room (layout : HeapLayout) (h : Heap) (size : ℕ) : Prop :=
  ∃ x, ∀ y, x ≤ y → y < x + size →
    y ∈ layout.region.numbers ∧ ∀ a ∈ h.live, y ∉ a.block.numbers

theorem fits_iff_room {free : List Interval}
    (h_inv : HeapInv layout (ready layout h.state) free h.live) :
    Fits n free ↔ 0 < n ∧ n < 2 ^ 31 ∧ Room layout h (requiredSize n) := by
  refine and_congr_right fun hpos => and_congr_right fun _ => ?_
  have hrequired : 0 < requiredSize n := by
    unfold requiredSize
    omega
  rw [h_inv.partition.exists_room hrequired]
  refine exists_congr fun x => forall₃_congr fun y _ _ => and_congr_right fun _ => ?_
  constructor
  · intro hnot a ha hy
    exact hnot ⟨_, mem_blocksOf ha, hy⟩
  · rintro hnot ⟨b, hb, hy⟩
    obtain ⟨a, ha, rfl⟩ := List.mem_map.mp hb
    exact hnot a ha hy

/-- After any run `pvPortMalloc` returns `NULL` just when nothing or too much is asked for or when
there is no room in one piece: free memory is never lost. -/
theorem malloc_null_iff (layout : HeapLayout) (memory : ByteMemory) (events : List HeapEvent)
    (h : Heap) (xWantedSize : ℕ) (hmet : Met (step layout) Allowed (start memory) events)
    (hrun : run (step layout) events (start memory) = some h) (hsize : xWantedSize < 2 ^ 32) :
    ∃ pv s, pvPortMalloc layout xWantedSize h.state = some (pv, s) ∧
      (pv = 0 ↔ xWantedSize = 0 ∨ 2 ^ 31 ≤ xWantedSize ∨
        ¬ Room layout h (requiredSize xWantedSize)) := by
  obtain ⟨free, hinv⟩ := (inv_of_run hmet hrun).divided
  obtain ⟨pv, s, hmalloc, hanswer⟩ := pvPortMalloc_spec hinv hsize
  refine ⟨pv, s, hmalloc, ?_⟩
  have hfits : pv = 0 ↔ ¬ Fits xWantedSize free := by
    rcases hanswer with ⟨hpv, -, hnot⟩ | ⟨hfits, block, -, hpv, -⟩
    · exact iff_of_true hpv hnot
    · exact iff_of_false (hpv ▸ Nat.succ_ne_zero _) (not_not_intro hfits)
  rw [hfits, fits_iff_room hinv]
  have hpos : xWantedSize = 0 ↔ ¬ 0 < xWantedSize := by omega
  rw [hpos, ← Nat.not_lt]
  tauto

theorem malloc_null_iff_bench : ∃ h pv s,
    run (step benchHeap) benchEvents (start fun _ => 0) = some h ∧
      pvPortMalloc benchHeap 200000 h.state = some (pv, s) ∧
      (pv = 0 ↔ 200000 = 0 ∨ 2 ^ 31 ≤ 200000 ∨ ¬ Room benchHeap h (requiredSize 200000)) := by
  have hrun : ∃ h ∈ run (step benchHeap) benchEvents (start fun _ => 0), True := by
    decide +kernel
  obtain ⟨h, hrun, -⟩ := hrun
  obtain ⟨pv, s, hmalloc, hnull⟩ := malloc_null_iff benchHeap (fun _ => 0) benchEvents h 200000
    (by decide +kernel) hrun (by decide)
  exact ⟨h, pv, s, hrun, hmalloc, hnull⟩

/-- When everything has been freed, in whatever order, the heap is one free block as at the start:
the largest request succeeds at the heap's first address. -/
theorem whole_again (layout : HeapLayout) (memory : ByteMemory) (events : List HeapEvent)
    (h : Heap) (hmet : Met (step layout) Allowed (start memory) events)
    (hrun : run (step layout) events (start memory) = some h) (hnone : h.live = []) :
    ListAt (ready layout h.state) ((ready layout h.state).pxNextFreeBlock layout.xStart)
        [layout.region] ∧
      xPortGetFreeHeapSize (ready layout h.state) = layout.region.size ∧
      ∃ s, pvPortMalloc layout (layout.region.size - xHeapStructSize) h.state =
        some (layout.first + xHeapStructSize, s) := by
  have hbounds := layout.bounds
  obtain ⟨free, hinv⟩ := (inv_of_run hmet hrun).divided
  have hpartition := hinv.partition
  rw [hnone] at hpartition
  obtain rfl := hpartition.eq_whole (by
    unfold HeapLayout.region
    simp only
    omega)
  have hfits := layout.ucHeap_fits
  refine ⟨hinv.chain.list, hinv.account, ?_⟩
  have hregion : layout.region.size = layout.last - layout.first := rfl
  obtain ⟨pv, s, hmalloc, hanswer⟩ :=
    pvPortMalloc_spec (n := layout.region.size - xHeapStructSize) hinv (by omega)
  refine ⟨s, hmalloc.trans (congrArg (fun pv => some (pv, s)) ?_)⟩
  have hrequired : requiredSize (layout.region.size - xHeapStructSize) = layout.region.size := by
    unfold requiredSize
    rw [xHeapStructSize_eq]
    omega
  rcases hanswer with ⟨-, -, hnot⟩ | ⟨-, block, free', rfl, hinv', -⟩
  · refine absurd ⟨?_, ?_, layout.region, List.mem_cons_self, Nat.le_of_eq hrequired⟩ hnot
    · rw [xHeapStructSize_eq]
      omega
    · unfold configTotalHeapSize at hbounds
      omega
  · -- The block has the size of the heap, so that it is the heap.
    have hroom := (hinv'.room _ List.mem_cons_self).1
    have hwithin := hinv'.within List.mem_cons_self
    unfold Interval.stop at hwithin
    rw [xHeapStructSize_eq] at hroom
    simp only at hroom hwithin
    omega

/-- Three blocks are freed, the second one first. -/
def benchFrees : List HeapEvent :=
  [.malloc 100, .malloc 20, .malloc 30, .release 0x20000280, .insert 0x20000280,
    .release 0x200002a0, .release 0x20000210, .insert 0x20000210, .insert 0x200002a0]

theorem whole_again_bench : ∃ h s,
    run (step benchHeap) benchFrees (start fun _ => 0) = some h ∧
      pvPortMalloc benchHeap (benchHeap.region.size - xHeapStructSize) h.state =
        some (benchHeap.first + xHeapStructSize, s) := by
  have hnone : ∃ h ∈ run (step benchHeap) benchFrees (start fun _ => 0), h.live = [] := by
    decide +kernel
  obtain ⟨h, hrun, hlive⟩ := hnone
  obtain ⟨-, -, s, hmalloc⟩ := whole_again benchHeap (fun _ => 0) benchFrees h
    (by decide +kernel) hrun hlive
  exact ⟨h, s, hrun, hmalloc⟩

end Heap

end TivaAws.Rtos
