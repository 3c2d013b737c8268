import TivaAws.Rtos.HeapBlocks
import TivaAws.Foundation.Runs
import Mathlib.Data.List.Pairwise

/-!
# Allocations

The blocks that the application has, and what they are worth in any interleaving of the tasks: a
task allocates, stores within its blocks, and frees them in the two parts of `vPortFree`, between
which other tasks may run.
-/

namespace TivaAws.Rtos

open ByteMemory Intervals

variable {layout : HeapLayout} {s s' : HeapState} {free others : List Interval}
  {b c : Interval} {w q n : ℕ}

/-! ## Splitting a block -/

/-- A block taken from the list is cut to the size that is wanted if enough remains. -/
theorem splitBlock_spec {used : List Interval} (h : FreeChain layout s others)
    (hsize : s.xBlockSize c.start = c.size)
    (hpartition : Partition layout.region others (c :: used))
    (haligned : 8 ∣ c.start ∧ 8 ∣ c.size) (hw : 0 < w) (hdvd : 8 ∣ w) (hle : w ≤ c.size) :
    ∃ s' free size, splitBlock layout w c.start s = some s' ∧ FreeChain layout s' free ∧
      Partition layout.region free (⟨c.start, size⟩ :: used) ∧ s'.xBlockSize c.start = size ∧
      w ≤ size ∧ size ≤ w + 16 ∧ 8 ∣ size ∧
      Writes (c.numbers ∪ footprint layout.xStart others) s s' := by
  have hbounds := layout.bounds
  have hcpos : 0 < c.size := Nat.lt_of_lt_of_le hw hle
  have hcin : ∀ x ∈ c.numbers, x ∈ layout.region.numbers := fun x hx =>
    (hpartition.cover x).mpr (Or.inr ⟨c, List.mem_cons_self, hx⟩)
  have hcwithin := within_heap hcpos hcin
  have hbeside := xStart_beside hcpos hcin
  have hdisjoint : ∀ x ∈ numbers others, x ∉ c.numbers := fun x hx hxc =>
    hpartition.disjoint x hx ⟨c, List.mem_cons_self, hxc⟩
  have hcount : total others ≤ layout.region.size := hpartition.total ▸ Nat.le_add_right _ _
  unfold splitBlock
  rw [hsize, heapMinimumBlockSize_eq]
  split_ifs with hlarge
  · have hlt : w < c.size := by omega
    have hnew := (hpartition.split hw hlt)
    have hnewin : ∀ x ∈ (⟨c.start + w, c.size - w⟩ : Interval).numbers, x ∈ layout.region.numbers :=
      fun x hx => (hnew.cover x).mpr (Or.inr
        ⟨_, List.mem_cons_of_mem _ List.mem_cons_self, hx⟩)
    have hguard : (c.start + w) &&& portByteAlignmentMask = 0 := by
      rw [and_mask]
      omega
    rw [assert_bind hguard]
    -- The two sizes are written into the block.
    have hwrites : Writes c.numbers s
        ((s.setBlockSize (c.start + w) (c.size - w)).setBlockSize c.start w) := by
      have hfirst : cell (c.start + w) ⊆ c.numbers := fun x hx => by
        rw [mem_cell] at hx
        rw [Interval.mem_numbers]
        unfold Interval.stop
        omega
      exact ((writes_setSize s _ _).mono hfirst).trans
        ((writes_setSize _ _ _).mono (cell_subset (by omega)))
    generalize hcut : (s.setBlockSize (c.start + w) (c.size - w)).setBlockSize c.start w = cut
      at hwrites
    have hstart : cut.xBlockSize c.start = w := by
      rw [← hcut, size_setSize _ (by
        unfold Interval.stop at hcwithin
        omega)]
    have hrest : cut.xBlockSize (c.start + w) = c.size - w := by
      rw [← hcut, ((writes_setSize (s.setBlockSize (c.start + w) (c.size - w)) c.start w).links
        fun x hx hx' => by
          rw [mem_cell] at hx hx'
          omega).2, size_setSize _ (by
        unfold Interval.stop at hcwithin
        omega)]
    have hchain : FreeChain layout cut others := by
      refine h.frame hwrites (fun x hx hxc => ?_) (fun x hx hxc => ?_) hdisjoint
      · rw [mem_cell] at hx
        rw [Interval.mem_numbers] at hxc
        omega
      · rw [mem_cell] at hx
        have hstop := hxc.2
        omega
    obtain ⟨s', hinsert, hfree, hkept⟩ := hchain.insert (b := ⟨c.start + w, c.size - w⟩)
      (h.rounds hcount) hrest (Nat.sub_pos_of_lt hlt)
      ⟨Nat.dvd_add haligned.1 hdvd, Nat.dvd_sub haligned.2 hdvd⟩ hnewin
      (fun d hd => hnew.apart_of_used hd (List.mem_cons_of_mem _ List.mem_cons_self))
    rw [← hcut] at hinsert
    have hrest_used : Partition layout.region others
        ([⟨c.start, w⟩] ++ ⟨c.start + w, c.size - w⟩ :: used) := hnew
    refine ⟨s', _, w, hinsert, hfree, hrest_used.give, ?_, Nat.le_refl w,
      Nat.le_add_right w 16, hdvd, (hwrites.mono Set.subset_union_left).trans (hkept.mono ?_)⟩
    · refine (hkept.links fun x hx => ?_).2.trans hstart
      have hxc : x ∈ c.numbers := cell_subset (by omega) hx
      rw [mem_cell] at hx
      rintro (hin | hin | hin)
      · have hlow := hin.1
        simp only at hlow
        omega
      · rw [mem_cell] at hin
        rw [Interval.mem_numbers] at hxc
        omega
      · exact hdisjoint x hin hxc
    · refine Set.union_subset_union_left _ fun x hx => ?_
      rw [Interval.mem_numbers] at hx ⊢
      unfold Interval.stop at hx ⊢
      simp only at hx
      omega
  · exact ⟨s, others, c.size, rfl, h, hpartition, hsize, hle, by omega, haligned.2,
      Writes.refl _ _⟩

/-! ## The blocks of the application -/

/-- A block that the application has: what it asked for, and whether `vPortFree` has begun. -/
structure Allocation where
  block : Interval
  xWantedSize : ℕ
  releasing : Bool
  deriving DecidableEq, Repr

namespace Allocation

/-- What `pvPortMalloc` returned. -/
def pv (a : Allocation) : ℕ := a.block.start + xHeapStructSize

/-- The bytes that the application may use. -/
def bytes (a : Allocation) : Interval := ⟨a.pv, a.xWantedSize⟩

/-- The second word of the block's `BlockLink_t`. -/
def word (a : Allocation) : ℕ := if a.releasing then a.block.size else a.block.size ||| 2 ^ 31

end Allocation

/-- The blocks of allocations. -/
def blocksOf (live : List Allocation) : List Interval := live.map Allocation.block

/-- The free and the allocated blocks divide the heap. -/
structure HeapInv (layout : HeapLayout) (s : HeapState) (free : List Interval)
    (live : List Allocation) : Prop where
  chain : FreeChain layout s free
  bit : s.xBlockAllocatedBit = 2 ^ 31
  partition : Partition layout.region free (blocksOf live)
  account : s.xFreeBytesRemaining = total free
  aligned : Aligned 8 (blocksOf live)
  links : ∀ a ∈ live,
    s.pxNextFreeBlock a.block.start = 0 ∧ s.xBlockSize a.block.start = a.word
  room : ∀ a ∈ live, a.xWantedSize + 8 ≤ a.block.size ∧ a.block.size ≤ a.xWantedSize + 31

variable {live : List Allocation} {a : Allocation}

theorem mem_blocksOf (ha : a ∈ live) : a.block ∈ blocksOf live := List.mem_map_of_mem ha

namespace HeapInv

theorem within (h : HeapInv layout s free live) (ha : a ∈ live) :
    layout.first ≤ a.block.start ∧ a.block.stop ≤ layout.last :=
  layout.region_stop ▸ h.partition.within_used (mem_blocksOf ha)

/-- The memory of an allocated block is apart from the free blocks and from `xStart`. -/
theorem apart_free (h : HeapInv layout s free live) (ha : a ∈ live) {x : ℕ}
    (hx : x ∈ a.block.numbers) : x ∉ footprint layout.xStart free := by
  have hmem := mem_blocksOf ha
  have hbeside := xStart_beside (h.partition.nonempty _ hmem) fun y hy =>
    (h.partition.cover y).mpr (Or.inr ⟨_, hmem, hy⟩)
  rintro (hin | hin)
  · rw [mem_cell] at hin
    rw [Interval.mem_numbers] at hx
    omega
  · exact h.partition.disjoint x hin ⟨_, hmem, hx⟩

theorem cell_subset (h : HeapInv layout s free live) (ha : a ∈ live) :
    cell a.block.start ⊆ a.block.numbers := by
  have hroom := h.room a ha
  exact Rtos.cell_subset (by omega)

theorem size_lt (h : HeapInv layout s free live) (ha : a ∈ live) : a.block.size < 2 ^ 31 := by
  have hwithin := h.within ha
  have hfits := layout.ucHeap_fits
  have hbounds := layout.bounds
  unfold Interval.stop at hwithin
  unfold configTotalHeapSize at hbounds
  omega

end HeapInv

/-! ## `pvPortMalloc` -/

/-- The size of the smallest block for a request. -/
def requiredSize (xWantedSize : ℕ) : ℕ := (xWantedSize + 15) / 8 * 8

theorem wantedBlockSize_eq (hn : 0 < n) : wantedBlockSize n = some (requiredSize n) := by
  unfold wantedBlockSize requiredSize portByteAlignment
  simp only [if_pos hn, xHeapStructSize_eq, and_mask]
  split_ifs with hunaligned hdone
  · congr 1
    omega
  · omega
  · congr 1
    omega

/-- The parts of a footprint. -/
theorem footprint_subset {node : ℕ} {front back : List Interval} :
    footprint node front ⊆ footprint node (front ++ c :: back) ∧
      c.numbers ∪ footprint node (front ++ back) ⊆ footprint node (front ++ c :: back) := by
  unfold footprint
  rw [numbers_append, numbers_append, numbers_cons]
  constructor
  · intro x hx
    simp only [Set.mem_union] at hx ⊢
    tauto
  · intro x hx
    simp only [Set.mem_union] at hx ⊢
    tauto

/-- The links of an allocated block are kept by writes elsewhere. -/
theorem HeapInv.links_kept (h : HeapInv layout s free live) (ha : a ∈ live)
    (hkept : ∀ x ∉ footprint layout.xStart free, s'.memory x = s.memory x) :
    s'.pxNextFreeBlock a.block.start = 0 ∧ s'.xBlockSize a.block.start = a.word := by
  have hcell : ∀ x, a.block.start ≤ x → x < a.block.start + 8 → s'.memory x = s.memory x :=
    fun x hlow hhigh => hkept x (h.apart_free ha (h.cell_subset ha ⟨hlow, hhigh⟩))
  obtain ⟨hnext, hsize⟩ := h.links a ha
  constructor
  · exact (readWord_congr fun x hlow hhigh => hcell x hlow (by omega)).trans hnext
  · exact (readWord_congr fun x hlow hhigh => hcell x (by omega) (by omega)).trans hsize

/-- The block that was found is taken from the list and allocated. -/
theorem takeBlock_spec (h : HeapInv layout s free live) (hfound : Found s w layout.xStart q c free)
    (hn : n + 8 ≤ w ∧ w ≤ n + 15) (hdvd : 8 ∣ w) :
    ∃ s' free' size, takeBlock layout w q c.start s = some (c.start + xHeapStructSize, s') ∧
      HeapInv layout s' free' (⟨⟨c.start, size⟩, n, false⟩ :: live) ∧
      ∀ x ∉ footprint layout.xStart free, s'.memory x = s.memory x := by
  obtain ⟨front, back, rfl, hq, hle, hunlinked⟩ := hfound
  have hc : c ∈ front ++ c :: back := List.mem_append_right front List.mem_cons_self
  have hclarge := h.chain.blocks.large c hc
  have haligned := h.chain.aligned c hc
  obtain ⟨hchain, hsize⟩ := h.chain.unlink hunlinked
  obtain ⟨s', free', size, hsplit, hfree, hpartition, hcsize, hwsize, hsizew, hsizedvd, hwrites⟩ :=
    splitBlock_spec hchain hsize h.partition.take haligned (by omega) hdvd hle
  have hall : Writes (footprint layout.xStart (front ++ c :: back)) s s' :=
    (hunlinked.writes.mono footprint_subset.1).trans (hwrites.mono footprint_subset.2)
  have hbit : s'.xBlockAllocatedBit = 2 ^ 31 := by
    obtain ⟨memory, rfl, -⟩ := hall
    exact h.bit
  have hcount : s'.xFreeBytesRemaining = total (front ++ c :: back) := by
    obtain ⟨memory, rfl, -⟩ := hall
    exact h.account
  have hremain : total (front ++ c :: back) - size = total free' := by
    have hbefore := h.partition.total
    have hafter := hpartition.total
    rw [total_cons] at hafter
    simp only at hafter
    omega
  have hin : ∀ x ∈ (⟨c.start, size⟩ : Interval).numbers, x ∈ layout.region.numbers := fun x hx =>
    (hpartition.cover x).mpr (Or.inr ⟨_, List.mem_cons_self, hx⟩)
  have hwithin := within_heap (show 0 < (⟨c.start, size⟩ : Interval).size by
    simp only
    omega) hin
  have hbeside := xStart_beside (show 0 < (⟨c.start, size⟩ : Interval).size by
    simp only
    omega) hin
  have hbounds := layout.bounds
  have hfits := layout.ucHeap_fits
  unfold Interval.stop at hwithin hbeside
  unfold configTotalHeapSize at hbounds
  simp only at hwithin hbeside
  have hlt : size < 2 ^ 31 := by omega
  -- At last the links of the block are written.
  have hlinks := (writes_setSize s' c.start (size ||| 2 ^ 31)).trans
    (writes_setNext _ c.start 0)
  have hsub := cell_subset (c := ⟨c.start, size⟩) (by
    simp only
    omega)
  have hchain' := hfree.frame hlinks
    (fun x hx hx' => by
      rw [mem_cell] at hx hx'
      omega)
    (fun x hx hx' => by
      rw [mem_cell] at hx hx'
      omega)
    (fun x hx hx' => hpartition.disjoint x hx ⟨_, List.mem_cons_self, hsub hx'⟩)
  generalize hlinked : (s'.setBlockSize c.start (size ||| 2 ^ 31)).setNextFreeBlock c.start 0 =
    linked at hlinks hchain'
  have hkept : ∀ x ∉ footprint layout.xStart (front ++ c :: back),
      linked.memory x = s.memory x := fun x hx =>
    (hlinks.kept fun hxc => hx (footprint_subset.2 (Or.inl (cell_subset hclarge hxc)))).trans
      (hall.kept hx)
  have htake : takeBlock layout w q c.start s = some (c.start + xHeapStructSize,
      { linked with
        xFreeBytesRemaining := total (front ++ c :: back) - size
        xMinimumEverFreeBytesRemaining :=
          if total (front ++ c :: back) - size < linked.xMinimumEverFreeBytesRemaining then
            total (front ++ c :: back) - size
          else linked.xMinimumEverFreeBytesRemaining }) := by
    unfold takeBlock
    simp only [hsplit, Option.bind_eq_bind, Option.bind_some, hq, hcsize, hbit, hcount, ← hlinked]
    rfl
  refine ⟨_, free', size, htake, ⟨hchain'.counters rfl rfl, ?_, hpartition, hremain, ?_,
    List.forall_mem_cons.mpr ⟨⟨?_, ?_⟩, fun a ha => h.links_kept ha hkept⟩,
    List.forall_mem_cons.mpr ⟨⟨?_, ?_⟩, h.room⟩⟩, hkept⟩
  · rw [← hlinked]
    exact hbit
  · exact List.forall_mem_cons.mpr ⟨⟨haligned.1, hsizedvd⟩, h.aligned⟩
  · rw [← hlinked]
    exact next_setNext _ (by omega)
  · rw [← hlinked]
    exact (size_setNext _ _ _).trans (size_setSize _ (by rw [or_bit hlt]; omega))
  · simp only
    omega
  · simp only
    omega

/-- A request that a free block can meet. -/
def Fits (xWantedSize : ℕ) (free : List Interval) : Prop :=
  0 < xWantedSize ∧ xWantedSize < 2 ^ 31 ∧ ∃ c ∈ free, requiredSize xWantedSize ≤ c.size

/-- What a request leads to: `NULL`, or a new block. -/
def Answered (layout : HeapLayout) (xWantedSize : ℕ) (s : HeapState) (free : List Interval)
    (live : List Allocation) (pv : ℕ) (s' : HeapState) : Prop :=
  pv = 0 ∧ s' = s ∧ ¬ Fits xWantedSize free ∨
    Fits xWantedSize free ∧ ∃ block free', pv = block.start + xHeapStructSize ∧
      HeapInv layout s' free' (⟨block, xWantedSize, false⟩ :: live) ∧
      ∀ x ∉ footprint layout.xStart free, s'.memory x = s.memory x

theorem allocate_spec (h : HeapInv layout s free live) (hn : n < 2 ^ 32) :
    ∃ pv s', allocate layout n s = some (pv, s') ∧ Answered layout n s free live pv s' := by
  have hbounds := layout.bounds
  unfold allocate
  rw [h.bit]
  by_cases hbit : n &&& 2 ^ 31 = 0
  · have hlt := (and_bit_eq_zero hn).mp hbit
    rw [if_pos hbit]
    by_cases hzero : n = 0
    · subst hzero
      exact ⟨0, s, rfl, Or.inl ⟨rfl, rfl, fun hfits => Nat.lt_irrefl 0 hfits.1⟩⟩
    have hpos : 0 < n := Nat.pos_of_ne_zero hzero
    have hrequired : n + 8 ≤ requiredSize n ∧ requiredSize n ≤ n + 15 ∧ 8 ∣ requiredSize n := by
      unfold requiredSize
      omega
    rw [wantedBlockSize_eq hpos, Option.bind_eq_bind, Option.bind_some, h.account]
    by_cases henough : requiredSize n ≤ total free
    · rw [if_pos ⟨by omega, henough⟩]
      have hcount : total free ≤ layout.region.size := h.partition.total ▸ Nat.le_add_right _ _
      obtain ⟨q, p, hloop, hresult⟩ :=
        findBlock_spec (w := requiredSize n) (h.chain.rounds hcount) h.chain.list h.chain.separated
          h.chain.blocks h.chain.pxEnd_lt (by rw [h.chain.pxEnd]; omega) h.chain.last
          (fun c hc => by
            have hwithin := within_heap (h.chain.separated.nonempty c hc) fun x hx =>
              h.chain.within x ⟨c, hc, hx⟩
            omega)
          (fun c hc => xStart_beside (h.chain.separated.nonempty c hc) fun x hx =>
            h.chain.within x ⟨c, hc, hx⟩)
      rw [hloop, Option.bind_eq_bind, Option.bind_some]
      rcases hresult with ⟨rfl, hshort⟩ | ⟨c, rfl, hfound⟩
      · refine ⟨0, s, if_neg fun hne => hne rfl, Or.inl ⟨rfl, rfl, ?_⟩⟩
        rintro ⟨-, -, c, hc, hlong⟩
        exact absurd (hshort c hc) (Nat.not_lt.mpr hlong)
      · obtain ⟨s', free', size, htake, hinv, hkept⟩ :=
          takeBlock_spec h hfound ⟨hrequired.1, hrequired.2.1⟩ hrequired.2.2
        obtain ⟨front, back, rfl, -, hlong, -⟩ := hfound
        have hc : c ∈ front ++ c :: back := List.mem_append_right front List.mem_cons_self
        have hne : c.start ≠ s.pxEnd := by
          have hlarge := h.chain.blocks.large c hc
          have hinside := h.chain.blocks.inside c hc
          unfold Interval.stop at hinside
          omega
        exact ⟨_, s', (if_pos hne).trans htake, Or.inr ⟨⟨hpos, hlt, c, hc, hlong⟩, ⟨c.start, size⟩,
          free', rfl, hinv, hkept⟩⟩
    · rw [if_neg fun hboth => henough hboth.2]
      refine ⟨0, s, rfl, Or.inl ⟨rfl, rfl, ?_⟩⟩
      rintro ⟨-, -, c, hc, hlong⟩
      exact henough (Nat.le_trans hlong (size_le_total hc))
  · rw [if_neg hbit]
    exact ⟨0, s, rfl, Or.inl ⟨rfl, rfl, fun hfits => hbit ((and_bit_eq_zero hn).mpr hfits.2.1)⟩⟩

/-- `pvPortMalloc`, whether or not it is the first call. -/
theorem pvPortMalloc_spec (h : HeapInv layout (ready layout s) free live) (hn : n < 2 ^ 32) :
    ∃ pv s', pvPortMalloc layout n s = some (pv, s') ∧
      Answered layout n (ready layout s) free live pv s' := by
  obtain ⟨pv, s', hallocate, hanswer⟩ := allocate_spec h hn
  refine ⟨pv, s', ?_, hanswer⟩
  have haligned : pv &&& portByteAlignmentMask = 0 := by
    rw [and_mask]
    rcases hanswer with ⟨rfl, -⟩ | ⟨-, block, free', rfl, hinv, -⟩
    · rfl
    · have hdvd := (hinv.aligned block List.mem_cons_self).1
      rw [xHeapStructSize_eq]
      omega
  unfold pvPortMalloc
  rw [hallocate, Option.bind_eq_bind, Option.bind_some]
  exact assert_bind haligned _

/-! ## `vPortFree` -/

/-- Writes that keep the links of all blocks. -/
theorem HeapInv.frame {changed : Set ℕ} (h : HeapInv layout s free live)
    (hwrites : Writes changed s s')
    (hhead : ∀ x ∈ cell layout.xStart, x ∉ changed) (hend : ∀ x ∈ cell layout.last, x ∉ changed)
    (hfree : ∀ x ∈ numbers free, x ∉ changed)
    (hlive : ∀ a ∈ live, ∀ x ∈ cell a.block.start, x ∉ changed) :
    HeapInv layout s' free live := by
  have hchain := h.chain.frame hwrites hhead hend hfree
  refine ⟨hchain, ?_, h.partition, ?_, h.aligned, fun a ha => ?_, h.room⟩
  · obtain ⟨memory, rfl, -⟩ := hwrites
    exact h.bit
  · obtain ⟨memory, rfl, -⟩ := hwrites
    exact h.account
  · obtain ⟨hnext, hsize⟩ := hwrites.links (hlive a ha)
    rw [hnext, hsize]
    exact h.links a ha

/-- Memory of an allocated block that is not in its links is apart from all links. -/
theorem HeapInv.apart_others (h : HeapInv layout s free live) {d : Allocation} (ha : a ∈ live)
    (hd : d ∈ live) (hne : d ≠ a) {x : ℕ} (hx : x ∈ a.block.numbers) : x ∉ d.block.numbers := by
  have hpair := List.pairwise_map.mp h.partition.apart
  have : Std.Symm fun a b : Allocation => a.block.Apart b.block := ⟨fun _ _ hab => hab.symm⟩
  have hapart := hpair.forall ha hd (Ne.symm hne)
  exact (Interval.apart_iff (h.partition.nonempty _ (mem_blocksOf ha))
    (h.partition.nonempty _ (mem_blocksOf hd))).mp hapart x hx

/-- A pointer belongs to one allocation. -/
theorem HeapInv.eq_of_pv (h : HeapInv layout s free live) {d : Allocation} (ha : a ∈ live)
    (hd : d ∈ live) (hpv : d.pv = a.pv) : d = a := by
  by_contra hne
  have hstart : d.block.start = a.block.start := Nat.add_right_cancel hpv
  have hsize := h.partition.nonempty _ (mem_blocksOf ha)
  have hsize' := h.partition.nonempty _ (mem_blocksOf hd)
  exact h.apart_others ha hd hne (x := a.block.start)
    ⟨Nat.le_refl _, Nat.lt_add_of_pos_right hsize⟩
    ⟨Nat.le_of_eq hstart, by unfold Interval.stop; omega⟩

/-- An application stores within what it asked for. -/
theorem HeapInv.store (h : HeapInv layout s free live) (ha : a ∈ live)
    (hwrites : Writes a.bytes.numbers s s') : HeapInv layout s' free live := by
  have hroom := h.room a ha
  have hin : ∀ x ∈ a.bytes.numbers, x ∈ a.block.numbers ∧ x ∉ cell a.block.start := by
    intro x hx
    have hlow : a.block.start + 8 ≤ x := hx.1
    have hhigh : x < a.block.start + 8 + a.xWantedSize := hx.2
    rw [Interval.mem_numbers, mem_cell]
    unfold Interval.stop
    omega
  refine h.frame hwrites (fun x hx hxb => ?_) (fun x hx hxb => ?_) (fun x hx hxb => ?_)
    fun d hd x hx hxb => ?_
  · exact h.apart_free ha (hin x hxb).1 (Or.inl hx)
  · have hwithin := (h.within ha).2
    have hstop := (hin x hxb).1.2
    rw [mem_cell] at hx
    omega
  · exact h.apart_free ha (hin x hxb).1 (Or.inr hx)
  · by_cases hda : d = a
    · subst hda
      exact (hin x hxb).2 hx
    · exact h.apart_others ha hd hda (hin x hxb).1 (h.cell_subset hd hx)

namespace Allocation

/-- The allocation that a pointer belongs to is being freed. -/
def mark (pv : ℕ) (a : Allocation) : Allocation :=
  if a.pv = pv then { a with releasing := true } else a

@[simp] theorem mark_block (pv : ℕ) (a : Allocation) : (a.mark pv).block = a.block := by
  unfold mark
  split_ifs <;> rfl

@[simp] theorem mark_xWantedSize (pv : ℕ) (a : Allocation) :
    (a.mark pv).xWantedSize = a.xWantedSize := by
  unfold mark
  split_ifs <;> rfl

end Allocation

theorem blocksOf_mark (pv : ℕ) (live : List Allocation) :
    blocksOf (live.map (Allocation.mark pv)) = blocksOf live := by
  unfold blocksOf
  rw [List.map_map]
  exact List.map_congr_left fun a _ => a.mark_block pv

theorem pv_sub (a : Allocation) : a.pv - xHeapStructSize = a.block.start := Nat.add_sub_cancel _ _

/-- The first part of `vPortFree` clears the bit in the size of the block. -/
theorem vPortFreeRelease_spec (h : HeapInv layout s free live) (ha : a ∈ live)
    (hnot : a.releasing = false) :
    ∃ s', vPortFreeRelease a.pv s = some s' ∧
      HeapInv layout s' free (live.map (Allocation.mark a.pv)) ∧
      Writes (cell a.block.start) s s' := by
  have hlt := h.size_lt ha
  obtain ⟨hnext, hsize⟩ := h.links a ha
  have hword : a.word = a.block.size + 2 ^ 31 := by
    unfold Allocation.word
    rw [hnot, or_bit hlt]
    rfl
  have hwrites := writes_setSize s a.block.start a.block.size
  have hcell := h.cell_subset ha
  have hchain := h.chain.frame hwrites
    (fun x hx hin => h.apart_free ha (hcell hin) (Or.inl hx))
    (fun x hx hin => by
      have hwithin := (h.within ha).2
      have hstop := (hcell hin).2
      rw [mem_cell] at hx
      omega)
    (fun x hx hin => h.apart_free ha (hcell hin) (Or.inr hx))
  refine ⟨s.setBlockSize a.block.start a.block.size, ?_, ⟨hchain, h.bit, ?_, h.account, ?_, ?_, ?_⟩,
    hwrites⟩
  · unfold vPortFreeRelease
    simp only [pv_sub, hsize, hnext, h.bit, hword, clearBits_bit hlt]
    rw [assert_bind (by rw [and_bit_add hlt]; exact Nat.two_pow_pos 31 |>.ne'), assert_bind trivial]
    rfl
  · rw [blocksOf_mark]
    exact h.partition
  · rw [blocksOf_mark]
    exact h.aligned
  · refine List.forall_mem_map.mpr fun d hd => ?_
    rw [Allocation.mark_block]
    unfold Allocation.mark
    by_cases hpv : d.pv = a.pv
    · obtain rfl := h.eq_of_pv ha hd hpv
      rw [if_pos rfl, next_setSize, size_setSize _ (by omega)]
      exact ⟨hnext, rfl⟩
    · rw [if_neg hpv]
      obtain ⟨hnext', hsize'⟩ := hwrites.links (a := d.block.start) fun x hx hin =>
        h.apart_others ha hd (fun hda => hpv (congrArg _ hda)) (hcell hin) (h.cell_subset hd hx)
      rw [hnext', hsize']
      exact h.links d hd
  · refine List.forall_mem_map.mpr fun d hd => ?_
    rw [Allocation.mark_block, Allocation.mark_xWantedSize]
    exact h.room d hd

/-- The second part of `vPortFree` gives the block back. -/
theorem vPortFreeInsert_spec {front back : List Allocation}
    (h : HeapInv layout s free (front ++ a :: back)) (hreleasing : a.releasing = true) :
    ∃ s', vPortFreeInsert layout a.pv s = some s' ∧
      HeapInv layout s' (add a.block free) (front ++ back) ∧
      ∀ x ∉ a.block.numbers ∪ footprint layout.xStart free, s'.memory x = s.memory x := by
  have ha : a ∈ front ++ a :: back := List.mem_append_right front List.mem_cons_self
  have hblock := mem_blocksOf ha
  obtain ⟨hnext, hsize⟩ := h.links a ha
  have hword : a.word = a.block.size := by
    unfold Allocation.word
    rw [hreleasing, if_pos rfl]
  have hcount : total free ≤ layout.region.size := h.partition.total ▸ Nat.le_add_right _ _
  have hpartition : Partition layout.region free (blocksOf front ++ a.block :: blocksOf back) := by
    have hwhole := h.partition
    unfold blocksOf at hwhole ⊢
    rw [List.map_append, List.map_cons] at hwhole
    exact hwhole
  have hkeep : ∀ d ∈ front ++ back, d ∈ front ++ a :: back := by
    intro d hd
    simp only [List.mem_append, List.mem_cons] at hd ⊢
    tauto
  have hblocks : blocksOf front ++ blocksOf back = blocksOf (front ++ back) :=
    (List.map_append).symm
  have hcounted : FreeChain layout
      { s with xFreeBytesRemaining := s.xFreeBytesRemaining + s.xBlockSize a.block.start } free :=
    h.chain.counters rfl rfl
  obtain ⟨s', hinsert, hchain, hwrites⟩ :=
    hcounted.insert
      (b := a.block) (h.chain.rounds hcount) (hsize.trans hword) (h.partition.nonempty _ hblock)
      (h.aligned _ hblock)
      (fun x hx => (h.partition.cover x).mpr (Or.inr ⟨_, hblock, hx⟩))
      (fun c hc => h.partition.apart_of_used hc hblock)
  have hkept : ∀ x ∉ a.block.numbers ∪ footprint layout.xStart free,
      s'.memory x = s.memory x := fun x hx => hwrites.kept hx
  refine ⟨s', ?_, ⟨hchain, ?_, hblocks ▸ hpartition.give, ?_, fun b hb => h.aligned b ?_,
    fun d hd => ?_, fun d hd => h.room d (hkeep d hd)⟩, hkept⟩
  · unfold vPortFreeInsert
    simp only [pv_sub]
    exact hinsert
  · obtain ⟨memory, rfl, -⟩ := hwrites
    exact h.bit
  · obtain ⟨memory, rfl, -⟩ := hwrites
    show s.xFreeBytesRemaining + s.xBlockSize a.block.start = _
    rw [h.account, hsize, hword, total_add, Nat.add_comm]
  · obtain ⟨d, hd, rfl⟩ := List.mem_map.mp hb
    exact mem_blocksOf (hkeep d hd)
  · have hne : d ≠ a := by
      rintro rfl
      have hpairs := List.pairwise_append.mp (List.pairwise_map.mp h.partition.apart)
      have hpos := h.partition.nonempty _ hblock
      have hself : ¬ d.block.Apart d.block := by
        unfold Interval.Apart Interval.stop
        omega
      rcases List.mem_append.mp hd with hd | hd
      · exact hself (hpairs.2.2 d hd d List.mem_cons_self)
      · exact hself (List.rel_of_pairwise_cons hpairs.2.1 hd)
    have hcell : ∀ x ∈ cell d.block.start, x ∉ a.block.numbers ∪ footprint layout.xStart free := by
      intro x hx hin
      have hxd := h.cell_subset (hkeep d hd) hx
      rcases hin with hin | hin
      · exact h.apart_others (hkeep d hd) ha hne.symm hxd hin
      · exact h.apart_free (hkeep d hd) hxd hin
    obtain ⟨hnext', hsize'⟩ := hwrites.links hcell
    rw [hnext', hsize']
    exact h.links d (hkeep d hd)

end TivaAws.Rtos
