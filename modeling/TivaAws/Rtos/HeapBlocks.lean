import TivaAws.Rtos.FreeList
import Mathlib.Data.Nat.Bitwise

/-!
# Blocks of the heap

`FreeChain` is what the allocator keeps about its free blocks and `HeapInv` what it keeps about all
blocks: the free ones and those that are allocated divide the heap. Each function of `heap_4.c` is
an operation on that division.
-/

namespace TivaAws.Rtos

open ByteMemory Intervals

variable {layout : HeapLayout} {s s' : HeapState} {free front back : List Interval}
  {b c : Interval} {changed : Set ℕ} {w n pv : ℕ}

/-! ## Bits -/

theorem and_mask (x : ℕ) : x &&& portByteAlignmentMask = x % 8 := Nat.and_two_pow_sub_one_eq_mod x 3

theorem clearBits_mask (x : ℕ) : clearBits x portByteAlignmentMask = x - x % 8 :=
  congrArg (x - ·) (and_mask x)

theorem xHeapStructSize_eq : xHeapStructSize = 8 := rfl

theorem heapMinimumBlockSize_eq : heapMinimumBlockSize = 16 := rfl

/-- A size with the bit that marks an allocated block. -/
theorem or_bit {x : ℕ} (h : x < 2 ^ 31) : x ||| 2 ^ 31 = x + 2 ^ 31 :=
  Nat.or_two_pow_eq_add_of_lt h

theorem and_bit_of_lt {x : ℕ} (h : x < 2 ^ 31) : x &&& 2 ^ 31 = 0 := by
  rw [Nat.and_two_pow, Nat.testBit_lt_two_pow h]
  rfl

theorem and_bit_add {x : ℕ} (h : x < 2 ^ 31) : (x + 2 ^ 31) &&& 2 ^ 31 = 2 ^ 31 := by
  rw [Nat.and_two_pow, Nat.testBit_of_two_pow_le_and_two_pow_add_one_gt (by omega) (by omega)]
  rfl

theorem and_bit_eq_zero {x : ℕ} (h : x < 2 ^ 32) : x &&& 2 ^ 31 = 0 ↔ x < 2 ^ 31 := by
  refine ⟨fun hzero => Nat.lt_of_not_le fun hle => ?_, and_bit_of_lt⟩
  obtain ⟨y, rfl⟩ := Nat.exists_eq_add_of_le' hle
  rw [and_bit_add (by omega)] at hzero
  omega

theorem clearBits_bit {x : ℕ} (h : x < 2 ^ 31) : clearBits (x + 2 ^ 31) (2 ^ 31) = x := by
  unfold clearBits
  rw [and_bit_add h, Nat.add_sub_cancel]

/-- An assertion that holds. -/
theorem assert_bind {α : Type} {p : Prop} [Decidable p] (h : p) (f : Unit → Option α) :
    (guard p >>= f) = f () := by
  unfold guard
  rw [if_pos h]
  rfl

/-! ## The heap's bounds -/

namespace HeapLayout

/-- The first aligned address of `ucHeap`. -/
def first (layout : HeapLayout) : ℕ := (layout.ucHeap + 7) / 8 * 8

/-- Where `pxEnd` is. -/
def last (layout : HeapLayout) : ℕ := (layout.ucHeap + configTotalHeapSize - 8) / 8 * 8

/-- What the blocks divide. -/
def region (layout : HeapLayout) : Interval := ⟨layout.first, layout.last - layout.first⟩

theorem bounds (layout : HeapLayout) :
    0 < layout.first ∧ layout.ucHeap ≤ layout.first ∧ layout.first + 155624 ≤ layout.last ∧
      layout.last + 8 ≤ layout.ucHeap + configTotalHeapSize ∧ layout.last < 2 ^ 32 ∧
      8 ∣ layout.first ∧ 8 ∣ layout.last ∧
      (layout.xStart + 8 ≤ layout.first ∨ layout.last + 8 ≤ layout.xStart) := by
  have hpos := layout.ucHeap_pos
  have hfits := layout.ucHeap_fits
  have hapart := layout.xStart_apart
  unfold first last
  unfold configTotalHeapSize at *
  omega

theorem region_stop (layout : HeapLayout) : layout.region.stop = layout.last := by
  have hbounds := layout.bounds
  unfold Interval.stop region
  simp only
  omega

end HeapLayout

/-! ## Free blocks -/

/-- The free blocks, as the list from `xStart` to `pxEnd` has them. -/
structure FreeChain (layout : HeapLayout) (s : HeapState) (free : List Interval) : Prop where
  pxEnd : s.pxEnd = layout.last
  last : s.xBlockSize s.pxEnd = 0 ∧ s.pxNextFreeBlock s.pxEnd = 0
  xStart : s.xBlockSize layout.xStart = 0
  list : ListAt s (s.pxNextFreeBlock layout.xStart) free
  separated : Separated free
  aligned : Aligned 8 free
  within : ∀ x ∈ numbers free, x ∈ layout.region.numbers

/-- A nonempty interval of numbers of the heap. -/
theorem within_heap (hpos : 0 < c.size) (h : ∀ x ∈ c.numbers, x ∈ layout.region.numbers) :
    layout.first ≤ c.start ∧ c.stop ≤ layout.last := by
  have hwithin := Partition.within hpos h
  rw [layout.region_stop] at hwithin
  exact hwithin

/-- Nonempty aligned intervals within the heap. -/
theorem blocks_of_within {l : List Interval} (hpos : ∀ c ∈ l, 0 < c.size) (haligned : Aligned 8 l)
    (hwithin : ∀ x ∈ numbers l, x ∈ layout.region.numbers) : Blocks layout.last l := by
  refine ⟨fun c hc => ?_, fun c hc =>
    (within_heap (hpos c hc) fun x hx => hwithin x ⟨c, hc, hx⟩).2⟩
  have hcpos := hpos c hc
  have hdvd := (haligned c hc).2
  omega

/-- `xStart` is apart from what lies in the heap. -/
theorem xStart_beside (hpos : 0 < c.size) (h : ∀ x ∈ c.numbers, x ∈ layout.region.numbers) :
    layout.xStart + 8 ≤ c.start ∨ c.stop ≤ layout.xStart := by
  have hbounds := layout.bounds
  have hc := within_heap hpos h
  unfold Interval.stop at hc ⊢
  omega

/-- `pxEnd` is apart from `xStart` and from what lies in the heap. -/
theorem last_not_mem_footprint {l : List Interval} {x : ℕ}
    (hwithin : ∀ x ∈ numbers l, x ∈ layout.region.numbers) (hx : x ∈ cell layout.last) :
    x ∉ footprint layout.xStart l := by
  have hbounds := layout.bounds
  rw [mem_cell] at hx
  rintro (hhead | hin)
  · rw [mem_cell] at hhead
    omega
  · have hstop := (hwithin x hin).2
    rw [layout.region_stop] at hstop
    omega

namespace FreeChain

theorem blocks (h : FreeChain layout s free) : Blocks s.pxEnd free :=
  h.pxEnd ▸ blocks_of_within h.separated.nonempty h.aligned h.within

theorem pxEnd_lt (h : FreeChain layout s free) : s.pxEnd < 2 ^ 32 := by
  rw [h.pxEnd]
  exact layout.bounds.2.2.2.2.1

/-- Writes outside the list, its head and its end. -/
theorem frame (h : FreeChain layout s free) (hwrites : Writes changed s s')
    (hhead : ∀ x ∈ cell layout.xStart, x ∉ changed) (hend : ∀ x ∈ cell layout.last, x ∉ changed)
    (hfree : ∀ x ∈ numbers free, x ∉ changed) : FreeChain layout s' free where
  pxEnd := hwrites.pxEnd.trans h.pxEnd
  last := by
    obtain ⟨hnext, hsize⟩ := hwrites.links (h.pxEnd ▸ hend)
    rw [hwrites.pxEnd, hnext, hsize]
    exact h.last
  xStart := (hwrites.links hhead).2.trans h.xStart
  list := by
    rw [(hwrites.links hhead).1]
    exact h.list.frame hwrites fun c hc x hx => hfree x (cell_subset_numbers h.blocks hc hx)
  separated := h.separated
  aligned := h.aligned
  within := h.within

/-- The list takes few rounds. -/
theorem rounds (h : FreeChain layout s free) (htotal : total free ≤ layout.region.size) :
    free.length < freeListRounds := by
  have hlength := h.separated.length_le
  have hbounds := layout.bounds
  unfold HeapLayout.region at htotal
  unfold freeListRounds configTotalHeapSize at *
  simp only at htotal
  omega

/-- `prvInsertBlockIntoFreeList` of a block beside the free ones. -/
theorem insert (h : FreeChain layout s free) (hrounds : free.length < freeListRounds)
    (hb : s.xBlockSize b.start = b.size) (hpos : 0 < b.size) (haligned : 8 ∣ b.start ∧ 8 ∣ b.size)
    (hwithin : ∀ x ∈ b.numbers, x ∈ layout.region.numbers) (hapart : ∀ c ∈ free, b.Apart c) :
    ∃ s', prvInsertBlockIntoFreeList layout b.start s = some s' ∧
      FreeChain layout s' (add b free) ∧
      Writes (b.numbers ∪ footprint layout.xStart free) s s' := by
  have haligned' : Aligned 8 (b :: free) := List.forall_mem_cons.mpr ⟨haligned, h.aligned⟩
  have hwithin' : ∀ x ∈ numbers (b :: free), x ∈ layout.region.numbers := by
    rw [numbers_cons]
    exact fun x hx => hx.elim (hwithin x) (h.within x)
  have hblocks : Blocks s.pxEnd (b :: free) := h.pxEnd ▸ blocks_of_within
    (List.forall_mem_cons.mpr ⟨hpos, h.separated.nonempty⟩) haligned' hwithin'
  have hbeside : ∀ c ∈ b :: free, layout.xStart + 8 ≤ c.start ∨ c.stop ≤ layout.xStart := by
    intro c hc
    have hlarge := hblocks.large c hc
    exact xStart_beside (by omega) fun x hx => hwithin' x ⟨c, hc, hx⟩
  -- `xStart` has the size zero, so that no block touches it.
  have hnot : ¬ layout.xStart + s.xBlockSize layout.xStart = b.start := by
    have hside := hbeside b List.mem_cons_self
    unfold Interval.stop at hside
    rw [h.xStart]
    omega
  obtain ⟨pxIterator, hloop, hadded, hwrites⟩ :=
    insert_spec layout.xStart hrounds hb h.list h.separated hapart hblocks h.pxEnd_lt hbeside
      fun htouch => absurd htouch hnot
  unfold AddedAt at hadded
  rw [if_neg hnot] at hadded
  have hends : ∀ x ∈ cell s.pxEnd, x ∉ b.numbers ∪ footprint layout.xStart free := by
    intro x hx hin
    refine last_not_mem_footprint hwithin' (h.pxEnd ▸ hx) ?_
    unfold footprint at hin ⊢
    rw [numbers_cons]
    simp only [Set.mem_union] at hin ⊢
    tauto
  obtain ⟨hnext, hsize⟩ := hwrites.links hends
  have hseparated := h.separated.add hpos hapart
  refine ⟨_, ?_, ⟨hwrites.pxEnd.trans h.pxEnd, ?_, hadded.2.trans h.xStart, hadded.1, hseparated,
    haligned'.add, ?_⟩, hwrites⟩
  · unfold prvInsertBlockIntoFreeList
    rw [hloop]
    rfl
  · rw [hwrites.pxEnd, hnext, hsize]
    exact h.last
  · rw [numbers_add, ← numbers_cons]
    exact hwithin'

/-- The counters are not part of the list. -/
theorem counters (h : FreeChain layout s free) (hmemory : s'.memory = s.memory)
    (hend : s'.pxEnd = s.pxEnd) : FreeChain layout s' free := by
  obtain ⟨memory, pxEnd, _, _, _⟩ := s
  obtain ⟨memory', pxEnd', _, _, _⟩ := s'
  obtain rfl : memory' = memory := hmemory
  obtain rfl : pxEnd' = pxEnd := hend
  exact ⟨h.pxEnd, h.last, h.xStart, h.list.congr rfl rfl, h.separated, h.aligned, h.within⟩

/-- The list without a block that was unlinked. -/
theorem unlink (h : FreeChain layout s (front ++ c :: back))
    (hunlinked : Unlinked s layout.xStart front back s') :
    FreeChain layout s' (front ++ back) ∧ s'.xBlockSize c.start = c.size := by
  have hc : c ∈ front ++ c :: back := List.mem_append_right front List.mem_cons_self
  have hsub : ∀ x ∈ numbers (front ++ back), x ∈ numbers (front ++ c :: back) := by
    intro x hx
    rw [numbers_append] at hx
    rw [numbers_append, numbers_cons]
    exact hx.imp id Or.inr
  have hfront : ∀ x ∈ numbers front, x ∈ layout.region.numbers := fun x hx =>
    h.within x (hsub x (by rw [numbers_append]; exact Or.inl hx))
  have hwrites := hunlinked.writes
  obtain ⟨hnext, hsize⟩ := hwrites.links (a := s.pxEnd) fun x hx =>
    last_not_mem_footprint hfront (h.pxEnd ▸ hx)
  have hlink := hwrites.links (a := c.start) fun x hx => by
    have hxc := cell_subset (h.blocks.large c hc) hx
    rintro (hhead | ⟨d, hd, hxd⟩)
    · have hside := xStart_beside (h.separated.nonempty c hc) fun y hy => h.within y ⟨c, hc, hy⟩
      rw [mem_cell] at hhead
      rw [Interval.mem_numbers] at hxc
      omega
    · have hapart := h.separated.apart_erase (List.mem_append_left back hd)
      unfold Interval.Apart at hapart
      rw [Interval.mem_numbers] at hxc hxd
      omega
  refine ⟨⟨hwrites.pxEnd.trans h.pxEnd, ?_, hunlinked.size.trans h.xStart, hunlinked.list,
    h.separated.erase, fun d hd => h.aligned d ?_, fun x hx => h.within x (hsub x hx)⟩,
    hlink.2.trans (h.list.size_of_mem hc)⟩
  · rw [hwrites.pxEnd, hnext, hsize]
    exact h.last
  · simp only [List.mem_append, List.mem_cons] at hd ⊢
    tauto

end FreeChain

/-! ## Initialisation -/

/-- Where `prvHeapInit` finds the bounds of the heap. -/
theorem aligned_bounds (layout : HeapLayout) :
    (if layout.ucHeap &&& portByteAlignmentMask ≠ 0 then
        clearBits (layout.ucHeap + (portByteAlignment - 1)) portByteAlignmentMask
      else layout.ucHeap) = layout.first ∧
    clearBits (layout.first +
        (if layout.ucHeap &&& portByteAlignmentMask ≠ 0 then
          configTotalHeapSize - (layout.first - layout.ucHeap)
        else configTotalHeapSize) - xHeapStructSize) portByteAlignmentMask = layout.last := by
  rw [and_mask, clearBits_mask, clearBits_mask, xHeapStructSize_eq]
  unfold HeapLayout.first HeapLayout.last portByteAlignment configTotalHeapSize
  constructor <;> split_ifs <;> omega

/-- The links that `prvHeapInit` writes. -/
def initialLinks (layout : HeapLayout) (s : HeapState) : HeapState :=
  let s := (s.setNextFreeBlock layout.xStart layout.first).setBlockSize layout.xStart 0
  let s := (s.setBlockSize layout.last 0).setNextFreeBlock layout.last 0
  (s.setBlockSize layout.first (layout.last - layout.first)).setNextFreeBlock layout.first
    layout.last

theorem prvHeapInit_eq (layout : HeapLayout) (s : HeapState) :
    prvHeapInit layout s =
      { initialLinks layout s with
        pxEnd := layout.last
        xMinimumEverFreeBytesRemaining := (initialLinks layout s).xBlockSize layout.first
        xFreeBytesRemaining := (initialLinks layout s).xBlockSize layout.first
        xBlockAllocatedBit := 2 ^ 31 } := by
  obtain ⟨hfirst, hlast⟩ := aligned_bounds layout
  unfold prvHeapInit initialLinks
  simp only [hfirst, hlast]
  rfl

theorem initialLinks_spec (layout : HeapLayout) (s : HeapState) :
    (initialLinks layout s).pxNextFreeBlock layout.xStart = layout.first ∧
    (initialLinks layout s).xBlockSize layout.xStart = 0 ∧
    (initialLinks layout s).pxNextFreeBlock layout.last = 0 ∧
    (initialLinks layout s).xBlockSize layout.last = 0 ∧
    (initialLinks layout s).pxNextFreeBlock layout.first = layout.last ∧
    (initialLinks layout s).xBlockSize layout.first = layout.region.size := by
  have hbounds := layout.bounds
  have hapart : ∀ {a a' : ℕ}, a + 8 ≤ a' ∨ a' + 8 ≤ a → ∀ x ∈ cell a, x ∉ cell a' := by
    intro a a' h x hx hx'
    rw [mem_cell] at hx hx'
    omega
  unfold initialLinks
  dsimp only
  generalize hhead : (s.setNextFreeBlock layout.xStart layout.first).setBlockSize layout.xStart 0 =
    head
  generalize hend : (head.setBlockSize layout.last 0).setNextFreeBlock layout.last 0 = tail
  have hfinal := (writes_setSize tail layout.first (layout.last - layout.first)).trans
    (writes_setNext _ layout.first layout.last)
  have htail := (writes_setSize head layout.last 0).trans (writes_setNext _ layout.last 0)
  rw [hend] at htail
  have hxStart := hfinal.links (hapart (a := layout.xStart) (by omega))
  have hxStart' := htail.links (hapart (a := layout.xStart) (by omega))
  have hlast := hfinal.links (hapart (a := layout.last) (by omega))
  refine ⟨?_, ?_, ?_, ?_, next_setNext _ (by omega), ?_⟩
  · rw [hxStart.1, hxStart'.1, ← hhead, next_setSize, next_setNext _ (by omega)]
  · rw [hxStart.2, hxStart'.2, ← hhead, size_setSize _ (by omega)]
  · rw [hlast.1, ← hend, next_setNext _ (by omega)]
  · rw [hlast.2, ← hend, size_setNext, size_setSize _ (by omega)]
  · rw [size_setNext, size_setSize _ (by omega)]
    rfl

theorem prvHeapInit_fields (layout : HeapLayout) (s : HeapState) :
    (prvHeapInit layout s).memory = (initialLinks layout s).memory ∧
    (prvHeapInit layout s).pxEnd = layout.last ∧
    (prvHeapInit layout s).xFreeBytesRemaining = (initialLinks layout s).xBlockSize layout.first ∧
    (prvHeapInit layout s).xMinimumEverFreeBytesRemaining =
      (initialLinks layout s).xBlockSize layout.first ∧
    (prvHeapInit layout s).xBlockAllocatedBit = 2 ^ 31 := by
  rw [prvHeapInit_eq]
  -- The bounds are not computed.
  generalize layout.last = last
  generalize (initialLinks layout s).xBlockSize layout.first = size
  exact ⟨rfl, rfl, rfl, rfl, rfl⟩

/-- `prvHeapInit` makes the heap one free block. -/
theorem prvHeapInit_spec (layout : HeapLayout) (s : HeapState) :
    FreeChain layout (prvHeapInit layout s) [layout.region] ∧
      (prvHeapInit layout s).xFreeBytesRemaining = layout.region.size ∧
      (prvHeapInit layout s).xMinimumEverFreeBytesRemaining = layout.region.size ∧
      (prvHeapInit layout s).xBlockAllocatedBit = 2 ^ 31 := by
  have hbounds := layout.bounds
  obtain ⟨hhead, hheadsize, hend, hendsize, hfirst, hsize⟩ := initialLinks_spec layout s
  obtain ⟨hmemory, hpxEnd, hfree, hleast, hbit⟩ := prvHeapInit_fields layout s
  have hlinks := links_of_memory hmemory
  refine ⟨⟨hpxEnd, ?_, (hlinks _).2.trans hheadsize, ?_, ?_, ?_, ?_⟩, hfree.trans hsize,
    hleast.trans hsize, hbit⟩
  · rw [hpxEnd]
    exact ⟨(hlinks _).2.trans hendsize, (hlinks _).1.trans hend⟩
  · refine ⟨(hlinks _).1.trans hhead, (hlinks _).2.trans hsize, ?_⟩
    exact ((hlinks _).1.trans hfirst).trans hpxEnd.symm
  · have hpos : 0 < layout.region.size := by
      unfold HeapLayout.region
      simp only
      omega
    exact (Partition.whole hpos).separated
  · refine List.forall_mem_cons.mpr ⟨⟨hbounds.2.2.2.2.2.1, ?_⟩, List.forall_mem_nil _⟩
    exact Nat.dvd_sub hbounds.2.2.2.2.2.2.1 hbounds.2.2.2.2.2.1
  · rw [numbers_cons, numbers_nil, Set.union_empty]
    exact fun x hx => hx

end TivaAws.Rtos
