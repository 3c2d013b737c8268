import TivaAws.Rtos.Heap

/-!
# The list of free blocks

`ListAt` says that a pointer leads to a list of blocks in memory. `insert_spec` is the specification
of `prvInsertBlockIntoFreeList` and `findBlock_spec` that of the search for a block: what is written
lies in the blocks of the list and in the `BlockLink_t` that points to the first one.
-/

namespace TivaAws.Rtos

open ByteMemory Intervals

/-! ## Words and frames -/

/-- The addresses of the `BlockLink_t` at an address. -/
def cell (pxBlock : ℕ) : Set ℕ := (Interval.mk pxBlock 8).numbers

theorem mem_cell {pxBlock x : ℕ} : x ∈ cell pxBlock ↔ pxBlock ≤ x ∧ x < pxBlock + 8 := Iff.rfl

/-- Only the memory changes, and only at the given addresses. -/
def Writes (changed : Set ℕ) (s s' : HeapState) : Prop :=
  ∃ memory, s' = { s with memory := memory } ∧ ∀ x ∉ changed, memory x = s.memory x

variable {s s' s'' : HeapState} {changed larger : Set ℕ} {a p v x prev w : ℕ}
  {b c : Interval} {l : List Interval}

namespace Writes

theorem refl (changed : Set ℕ) (s : HeapState) : Writes changed s s :=
  ⟨s.memory, rfl, fun _ _ => rfl⟩

theorem trans (h : Writes changed s s') (h' : Writes changed s' s'') : Writes changed s s'' := by
  obtain ⟨memory, rfl, hkept⟩ := h
  obtain ⟨memory', rfl, hkept'⟩ := h'
  exact ⟨memory', rfl, fun x hx => (hkept' x hx).trans (hkept x hx)⟩

theorem mono (h : Writes changed s s') (hsub : changed ⊆ larger) : Writes larger s s' := by
  obtain ⟨memory, rfl, hkept⟩ := h
  exact ⟨memory, rfl, fun x hx => hkept x fun hin => hx (hsub hin)⟩

theorem kept (h : Writes changed s s') (hx : x ∉ changed) : s'.memory x = s.memory x := by
  obtain ⟨memory, rfl, hkept⟩ := h
  exact hkept x hx

theorem pxEnd (h : Writes changed s s') : s'.pxEnd = s.pxEnd := by
  obtain ⟨memory, rfl, -⟩ := h
  rfl

/-- A `BlockLink_t` apart from what changes. -/
theorem links (h : Writes changed s s') (hcell : ∀ x ∈ cell a, x ∉ changed) :
    s'.pxNextFreeBlock a = s.pxNextFreeBlock a ∧ s'.xBlockSize a = s.xBlockSize a := by
  constructor
  · exact readWord_congr fun x hlow hhigh => h.kept (hcell x ⟨hlow, by simp [Interval.stop]; omega⟩)
  · exact readWord_congr fun x hlow hhigh =>
      h.kept (hcell x ⟨by simp; omega, by simp [Interval.stop]; omega⟩)

end Writes

theorem writes_setNext (s : HeapState) (a v : ℕ) : Writes (cell a) s (s.setNextFreeBlock a v) :=
  ⟨_, rfl, fun x hx => writeWord_outside (by rw [mem_cell] at hx; omega)⟩

theorem writes_setSize (s : HeapState) (a v : ℕ) : Writes (cell a) s (s.setBlockSize a v) :=
  ⟨_, rfl, fun x hx => writeWord_outside (by rw [mem_cell] at hx; omega)⟩

theorem next_setNext (s : HeapState) (hv : v < 2 ^ 32) :
    (s.setNextFreeBlock a v).pxNextFreeBlock a = v := readWord_writeWord hv

theorem size_setSize (s : HeapState) (hv : v < 2 ^ 32) : (s.setBlockSize a v).xBlockSize a = v :=
  readWord_writeWord hv

theorem size_setNext (s : HeapState) (a v : ℕ) :
    (s.setNextFreeBlock a v).xBlockSize a = s.xBlockSize a :=
  readWord_writeWord_apart (Or.inr (Nat.le_refl _))

theorem next_setSize (s : HeapState) (a v : ℕ) :
    (s.setBlockSize a v).pxNextFreeBlock a = s.pxNextFreeBlock a :=
  readWord_writeWord_apart (Or.inl (Nat.le_refl _))

/-! ## Lists in memory -/

/-- A pointer leads from block to block and at last to `pxEnd`. -/
def ListAt (s : HeapState) : ℕ → List Interval → Prop
  | p, [] => p = s.pxEnd
  | p, c :: l =>
      p = c.start ∧ s.xBlockSize c.start = c.size ∧ ListAt s (s.pxNextFreeBlock c.start) l

/-- Blocks with room for a `BlockLink_t` that end before `pxEnd`. -/
structure Blocks (pxEnd : ℕ) (l : List Interval) : Prop where
  large : ∀ c ∈ l, 8 ≤ c.size
  inside : ∀ c ∈ l, c.stop ≤ pxEnd

theorem Blocks.tail {pxEnd : ℕ} (h : Blocks pxEnd (c :: l)) : Blocks pxEnd l :=
  ⟨fun d hd => h.large d (List.mem_cons_of_mem c hd),
    fun d hd => h.inside d (List.mem_cons_of_mem c hd)⟩

/-- The `BlockLink_t` of a block lies in the block. -/
theorem cell_subset (h : 8 ≤ c.size) : cell c.start ⊆ c.numbers := by
  intro x hx
  rw [mem_cell] at hx
  exact ⟨hx.1, by unfold Interval.stop; omega⟩

/-- A list none of whose blocks' links change. -/
theorem ListAt.frame (h : ListAt s p l) (hwrites : Writes changed s s')
    (hapart : ∀ c ∈ l, ∀ x ∈ cell c.start, x ∉ changed) : ListAt s' p l := by
  induction l generalizing p with
  | nil => exact h.trans hwrites.pxEnd.symm
  | cons c l ih =>
      obtain ⟨hp, hsize, hrest⟩ := h
      obtain ⟨hnext, hsame⟩ := hwrites.links (hapart c List.mem_cons_self)
      refine ⟨hp, hsame.trans hsize, ?_⟩
      rw [hnext]
      exact ih hrest fun d hd => hapart d (List.mem_cons_of_mem c hd)

/-- The links are those of the memory. -/
theorem links_of_memory (hmemory : s'.memory = s.memory) (a : ℕ) :
    s'.pxNextFreeBlock a = s.pxNextFreeBlock a ∧ s'.xBlockSize a = s.xBlockSize a :=
  ⟨congrArg (readWord · a) hmemory, congrArg (readWord · (a + 4)) hmemory⟩

/-- The list depends on the memory and on `pxEnd` only. -/
theorem ListAt.congr (h : ListAt s p l) (hmemory : s'.memory = s.memory)
    (hend : s'.pxEnd = s.pxEnd) : ListAt s' p l := by
  have hlinks := links_of_memory hmemory
  induction l generalizing p with
  | nil => exact h.trans hend.symm
  | cons c l ih => exact ⟨h.1, (hlinks _).2.trans h.2.1, (hlinks c.start).1.symm ▸ ih h.2.2⟩

/-- The blocks of a list have their sizes in memory. -/
theorem ListAt.size_of_mem (h : ListAt s p l) (hc : c ∈ l) : s.xBlockSize c.start = c.size := by
  induction l generalizing p with
  | nil => exact absurd hc List.not_mem_nil
  | cons d l ih =>
      rcases List.mem_cons.mp hc with rfl | hc
      · exact h.2.1
      · exact ih h.2.2 hc

/-- A pointer to a list is a block of it or `pxEnd`. -/
theorem ListAt.pointer_le (h : ListAt s p l) (hblocks : Blocks s.pxEnd l) : p ≤ s.pxEnd := by
  cases l with
  | nil => exact Nat.le_of_eq h
  | cons c l =>
      have hinside := hblocks.inside c List.mem_cons_self
      unfold Interval.stop at hinside
      have hp := h.1
      omega

/-! ## Insertion -/

/-- The block in front of a list takes it as its own rest, joined with the first block if that
touches it. -/
theorem linkNext_spec (node : Interval) (hsize : s.xBlockSize node.start = node.size)
    (hlist : ListAt s p l) (hafter : ∀ c ∈ l, node.stop ≤ c.start)
    (hblocks : Blocks s.pxEnd (node :: l)) (hend : s.pxEnd < 2 ^ 32) :
    ListAt (linkNext node.start p s) node.start (join node l) ∧
      Writes (cell node.start) s (linkNext node.start p s) := by
  have hp := hlist.pointer_le hblocks.tail
  have hlarge := hblocks.large node List.mem_cons_self
  -- The links of the blocks behind do not change.
  have hapart : ∀ c ∈ l, ∀ x ∈ cell c.start, x ∉ cell node.start := by
    intro c hc x hx hnode
    have hstop := hafter c hc
    unfold Interval.stop at hstop
    rw [mem_cell] at hx hnode
    omega
  unfold linkNext
  rw [hsize]
  cases l with
  | nil =>
      obtain rfl : p = s.pxEnd := hlist
      simp only [ne_eq, not_true_eq_false, if_false, ite_self]
      refine ⟨⟨rfl, (size_setNext _ _ _).trans hsize, ?_⟩, writes_setNext _ _ _⟩
      exact next_setNext s hend
  | cons c l =>
      obtain ⟨hpc, hcsize, hrest⟩ := hlist
      subst hpc
      rw [join]
      have hlater : ∀ d ∈ l, ∀ x ∈ cell d.start, x ∉ cell node.start :=
        fun d hd => hapart d (List.mem_cons_of_mem c hd)
      have hcinside := hblocks.inside c (List.mem_cons_of_mem node List.mem_cons_self)
      have hclarge := hblocks.large c (List.mem_cons_of_mem node List.mem_cons_self)
      have hcend : c.start ≠ s.pxEnd := by
        unfold Interval.stop at hcinside
        omega
      by_cases htouch : node.stop = c.start
      · have htouch' : node.start + node.size = c.start := htouch
        rw [if_pos htouch', if_pos hcend, if_pos htouch]
        have hwrites := writes_setSize s node.start (node.size + s.xBlockSize c.start)
        have hlinks := hwrites.links (hapart c List.mem_cons_self)
        have hnext := (hrest.pointer_le hblocks.tail.tail)
        refine ⟨⟨rfl, ?_, ?_⟩, hwrites.trans (writes_setNext _ _ _)⟩
        · rw [size_setNext, size_setSize, hcsize]
          unfold Interval.stop at hcinside
          omega
        · rw [next_setNext _ (by rw [hlinks.1]; omega), hlinks.1]
          exact hrest.frame (hwrites.trans (writes_setNext _ _ _)) hlater
      · have htouch' : ¬ node.start + node.size = c.start := htouch
        rw [if_neg htouch', if_neg htouch]
        have hwrites := writes_setNext s node.start c.start
        refine ⟨⟨rfl, (size_setNext _ _ _).trans hsize, ?_⟩, hwrites⟩
        rw [next_setNext s (by omega)]
        exact ListAt.frame (l := c :: l) ⟨rfl, hcsize, hrest⟩ hwrites hapart

/-- The list at a node after `b` is added behind it: joined with the node if they touch. -/
def AddedAt (s s' : HeapState) (node : ℕ) (b : Interval) (l : List Interval) : Prop :=
  if node + s.xBlockSize node = b.start then
    ListAt s' node (join ⟨node, s.xBlockSize node + b.size⟩ l)
  else
    ListAt s' (s'.pxNextFreeBlock node) (add b l) ∧ s'.xBlockSize node = s.xBlockSize node

/-- Before the first of later blocks, a block is added by joining it with that. -/
theorem add_of_before (h : ∀ c ∈ l, b.start ≤ c.start) : add b l = join b l := by
  cases l with
  | nil => rfl
  | cons c l => exact if_pos (h c List.mem_cons_self)

theorem insertAt_spec {node : ℕ} (hb : s.xBlockSize b.start = b.size)
    (hlist : ListAt s (s.pxNextFreeBlock node) l) (hafter : ∀ c ∈ l, b.stop ≤ c.start)
    (hblocks : Blocks s.pxEnd (b :: l)) (hend : s.pxEnd < 2 ^ 32)
    (hnode : ∀ c ∈ b :: l, node + 8 ≤ c.start ∨ c.stop ≤ node)
    (htouching : node + s.xBlockSize node = b.start → 8 ≤ s.xBlockSize node) :
    AddedAt s (insertAt b.start node s) node b l ∧
      Writes (cell b.start ∪ cell node) s (insertAt b.start node s) := by
  have hinside := hblocks.inside b List.mem_cons_self
  have hlarge := hblocks.large b List.mem_cons_self
  have hbnode := hnode b List.mem_cons_self
  unfold Interval.stop at hinside hbnode
  -- The node's links are apart from the blocks'.
  have hapart : ∀ c ∈ l, ∀ x ∈ cell c.start, x ∉ cell node := by
    intro c hc x hx hin
    have hclarge := hblocks.large c (List.mem_cons_of_mem b hc)
    have hside := hnode c (List.mem_cons_of_mem b hc)
    unfold Interval.stop at hside
    rw [mem_cell] at hx hin
    omega
  unfold AddedAt insertAt
  by_cases htouch : node + s.xBlockSize node = b.start
  · simp only [htouch, if_true, ne_eq, not_true_eq_false, if_false, hb]
    have hwrites := writes_setSize s node (s.xBlockSize node + b.size)
    have hsize := size_setSize (a := node) s
      (show s.xBlockSize node + b.size < 2 ^ 32 by omega)
    have hnext := next_setSize s node (s.xBlockSize node + b.size)
    have hlarger := htouching htouch
    have hjoined : Blocks s.pxEnd (⟨node, s.xBlockSize node + b.size⟩ :: l) := by
      refine ⟨List.forall_mem_cons.mpr ⟨?_, hblocks.tail.large⟩,
        List.forall_mem_cons.mpr ⟨?_, hblocks.tail.inside⟩⟩
      · show 8 ≤ s.xBlockSize node + b.size
        omega
      · show node + (s.xBlockSize node + b.size) ≤ s.pxEnd
        omega
    obtain ⟨hadded, hlinked⟩ :=
      linkNext_spec (p := s.pxNextFreeBlock node) (l := l)
        ⟨node, s.xBlockSize node + b.size⟩ hsize (hlist.frame hwrites hapart)
        (fun c hc => by
          have hstop := hafter c hc
          unfold Interval.stop at hstop ⊢
          simp only
          omega)
        hjoined hend
    rw [hnext]
    exact ⟨hadded, (hwrites.trans hlinked).mono Set.subset_union_right⟩
  · have hdiffer : node ≠ b.start := by omega
    simp only [htouch, if_false, ne_eq, hdiffer, not_false_eq_true, if_true]
    obtain ⟨hadded, hlinked⟩ := linkNext_spec b hb hlist hafter hblocks hend
    have hwrites := writes_setNext (linkNext b.start (s.pxNextFreeBlock node) s) node b.start
    refine ⟨⟨?_, ?_⟩, (hlinked.mono Set.subset_union_left).trans
      (hwrites.mono Set.subset_union_right)⟩
    · rw [next_setNext _ (by omega),
        add_of_before fun c hc => Nat.le_trans (Nat.le_add_right _ _) (hafter c hc)]
      refine hadded.frame hwrites fun c hc x hx hin => ?_
      obtain hstart | ⟨d, hd, hstart⟩ := start_of_mem_join hc
      · rw [hstart, mem_cell] at hx
        rw [mem_cell] at hin
        omega
      · exact hapart d hd x (hstart ▸ hx) hin
    · rw [size_setNext]
      refine (hlinked.links fun x hx hin => ?_).2
      rw [mem_cell] at hx hin
      omega

/-- The blocks of a list and the `BlockLink_t` before it. -/
def footprint (node : ℕ) (l : List Interval) : Set ℕ := cell node ∪ numbers l

theorem cell_subset_numbers {pxEnd : ℕ} (hblocks : Blocks pxEnd l) (hc : c ∈ l) :
    cell c.start ⊆ numbers l :=
  fun _ hx => ⟨c, hc, cell_subset (hblocks.large c hc) hx⟩

theorem footprint_tail {pxEnd node : ℕ} (hblocks : Blocks pxEnd (c :: l)) :
    footprint c.start l ⊆ footprint node (c :: l) := by
  unfold footprint
  rw [numbers_cons]
  exact Set.union_subset
    ((cell_subset (hblocks.large c List.mem_cons_self)).trans
      (Set.subset_union_left.trans Set.subset_union_right))
    (Set.subset_union_right.trans Set.subset_union_right)

/-- A `BlockLink_t` apart from blocks is apart from the later part of a list. -/
theorem not_mem_footprint_tail {pxEnd node : ℕ} (hblocks : Blocks pxEnd (c :: l))
    (hnode : ∀ d ∈ c :: l, node + 8 ≤ d.start ∨ d.stop ≤ node) (hx : x ∈ cell node) :
    x ∉ footprint c.start l := by
  intro hin
  have hmem : x ∈ numbers (c :: l) := by
    rcases hin with hcell | hin
    · exact cell_subset_numbers hblocks List.mem_cons_self hcell
    · rw [numbers_cons]
      exact Or.inr hin
  obtain ⟨d, hd, hstart, hstop⟩ := hmem
  have hside := hnode d hd
  rw [mem_cell] at hx
  omega

/-- `prvInsertBlockIntoFreeList` from a node on, by induction on the list behind the node. -/
theorem insert_spec (node : ℕ) {rounds : ℕ} (hrounds : l.length < rounds)
    (hb : s.xBlockSize b.start = b.size) (hlist : ListAt s (s.pxNextFreeBlock node) l)
    (hsep : Separated l) (hapart : ∀ c ∈ l, b.Apart c) (hblocks : Blocks s.pxEnd (b :: l))
    (hend : s.pxEnd < 2 ^ 32) (hnode : ∀ c ∈ b :: l, node + 8 ≤ c.start ∨ c.stop ≤ node)
    (htouching : node + s.xBlockSize node = b.start →
      8 ≤ s.xBlockSize node ∧ ∀ c ∈ l, b.start < c.start) :
    ∃ pxIterator, insertAfter s b.start rounds node = some pxIterator ∧
      AddedAt s (insertAt b.start pxIterator s) node b l ∧
      Writes (b.numbers ∪ footprint node l) s (insertAt b.start pxIterator s) := by
  have hlarge := hblocks.large b List.mem_cons_self
  have hinside := hblocks.inside b List.mem_cons_self
  induction l generalizing node rounds with
  | nil =>
      obtain ⟨rounds, rfl⟩ := Nat.exists_eq_succ_of_ne_zero (Nat.ne_of_gt hrounds)
      have hstop : ¬ s.pxNextFreeBlock node < b.start := by
        have hp : s.pxNextFreeBlock node = s.pxEnd := hlist
        unfold Interval.stop at hinside
        omega
      obtain ⟨hadded, hwrites⟩ :=
        insertAt_spec hb hlist (List.forall_mem_nil _) hblocks hend hnode fun h => (htouching h).1
      exact ⟨node, if_neg hstop, hadded, hwrites.mono (Set.union_subset_union
        (cell_subset hlarge) Set.subset_union_left)⟩
  | cons c l ih =>
      obtain ⟨rounds, rfl⟩ := Nat.exists_eq_succ_of_ne_zero (Nat.ne_zero_of_lt hrounds)
      have hcapart := hapart c List.mem_cons_self
      have hclarge := hblocks.large c (List.mem_cons_of_mem b List.mem_cons_self)
      have hp : s.pxNextFreeBlock node = c.start := hlist.1
      by_cases hlt : c.start < b.start
      · -- The loop goes on to the next block.
        have hkeep : Blocks s.pxEnd (b :: l) :=
          ⟨List.forall_mem_cons.mpr ⟨hlarge, hblocks.tail.tail.large⟩,
            List.forall_mem_cons.mpr ⟨hinside, hblocks.tail.tail.inside⟩⟩
        have hcstop : c.stop ≤ b.start := by
          unfold Interval.Apart Interval.stop at hcapart
          unfold Interval.stop
          omega
        have hnodes : ∀ d ∈ b :: l, c.start + 8 ≤ d.start ∨ d.stop ≤ c.start := by
          intro d hd
          rcases List.mem_cons.mp hd with rfl | hd
          · unfold Interval.stop at hcstop
            omega
          · have hgap := hsep.lt hd
            unfold Interval.stop at hgap
            omega
        obtain ⟨pxIterator, hloop, hadded, hwrites⟩ :=
          ih c.start (Nat.lt_of_succ_lt_succ hrounds) hlist.2.2 hsep.tail
            (fun d hd => hapart d (List.mem_cons_of_mem c hd)) hkeep hnodes (fun htouch => by
              rw [hlist.2.1] at htouch ⊢
              refine ⟨hclarge, fun d hd => ?_⟩
              have hgap := hsep.lt hd
              unfold Interval.stop at hgap
              omega)
        have hfar : ∀ x ∈ cell node, x ∉ b.numbers ∪ footprint c.start l := by
          intro x hx hin
          rcases hin with hin | hin
          · have hside := hnode b List.mem_cons_self
            rw [mem_cell] at hx
            rw [Interval.mem_numbers] at hin
            omega
          · exact not_mem_footprint_tail hblocks.tail
              (fun d hd => hnode d (List.mem_cons_of_mem b hd)) hx hin
        obtain ⟨hnext, hsize⟩ := hwrites.links hfar
        refine ⟨pxIterator, ?_, ?_, hwrites.mono (Set.union_subset_union_right _
          (footprint_tail hblocks.tail))⟩
        · show (if s.pxNextFreeBlock node < b.start then _ else _) = _
          rw [hp, if_pos hlt]
          exact hloop
        · have hnot : ¬ node + s.xBlockSize node = b.start := fun htouch =>
            Nat.lt_asymm hlt ((htouching htouch).2 c List.mem_cons_self)
          unfold AddedAt at hadded ⊢
          rw [if_neg hnot, hnext, hp, add, if_neg (Nat.not_le.mpr hlt)]
          refine ⟨?_, hsize⟩
          rw [hlist.2.1] at hadded
          split_ifs at hadded with htouch
          · rw [if_pos (show c.stop = b.start from htouch)]
            exact hadded
          · rw [if_neg (show ¬ c.stop = b.start from htouch)]
            exact ⟨rfl, hadded.2, hadded.1⟩
      · have hbefore : ∀ d ∈ c :: l, b.stop ≤ d.start := by
          intro d hd
          have hcb : b.stop ≤ c.start := by
            unfold Interval.Apart Interval.stop at hcapart
            unfold Interval.stop
            omega
          rcases List.mem_cons.mp hd with rfl | hd
          · exact hcb
          · have hgap := hsep.lt hd
            unfold Interval.stop at hgap hcb ⊢
            omega
        obtain ⟨hadded, hwrites⟩ :=
          insertAt_spec hb hlist hbefore hblocks hend hnode fun h => (htouching h).1
        refine ⟨node, ?_, hadded, hwrites.mono (Set.union_subset_union (cell_subset hlarge)
          Set.subset_union_left)⟩
        show (if s.pxNextFreeBlock node < b.start then _ else _) = _
        rw [hp, if_neg hlt]

/-! ## Search -/

/-- What unlinking a block from the list at a node leaves. -/
structure Unlinked (s : HeapState) (node : ℕ) (front back : List Interval) (s' : HeapState) :
    Prop where
  list : ListAt s' (s'.pxNextFreeBlock node) (front ++ back)
  size : s'.xBlockSize node = s.xBlockSize node
  writes : Writes (footprint node front) s s'

/-- The first block that is long enough, the node before it, and the list without it. -/
def Found (s : HeapState) (w node q : ℕ) (c : Interval) (l : List Interval) : Prop :=
  ∃ front back, l = front ++ c :: back ∧ s.pxNextFreeBlock q = c.start ∧ w ≤ c.size ∧
    Unlinked s node front back (s.setNextFreeBlock q (s.pxNextFreeBlock c.start))

theorem ListAt.pointer_ne_zero (h : ListAt s p l) (hstarts : ∀ c ∈ l, c.start ≠ 0)
    (hend : s.pxEnd ≠ 0) : p ≠ 0 := by
  cases l with
  | nil => exact h ▸ hend
  | cons c l => exact h.1 ▸ hstarts c List.mem_cons_self

/-- The search of `pvPortMalloc` from a node on, by induction on the list behind the node. -/
theorem findBlock_spec {node rounds : ℕ} (hrounds : l.length < rounds)
    (hlist : ListAt s (s.pxNextFreeBlock node) l) (hsep : Separated l)
    (hblocks : Blocks s.pxEnd l) (hend : s.pxEnd < 2 ^ 32) (hpos : s.pxEnd ≠ 0)
    (hlast : s.xBlockSize s.pxEnd = 0 ∧ s.pxNextFreeBlock s.pxEnd = 0)
    (hstarts : ∀ c ∈ l, c.start ≠ 0) (hnode : ∀ c ∈ l, node + 8 ≤ c.start ∨ c.stop ≤ node) :
    ∃ q p, findBlock s w rounds node (s.pxNextFreeBlock node) = some (q, p) ∧
      (p = s.pxEnd ∧ (∀ c ∈ l, c.size < w) ∨ ∃ c, p = c.start ∧ Found s w node q c l) := by
  induction l generalizing node rounds with
  | nil =>
      obtain ⟨rounds, rfl⟩ := Nat.exists_eq_succ_of_ne_zero (Nat.ne_of_gt hrounds)
      have hp : s.pxNextFreeBlock node = s.pxEnd := hlist
      refine ⟨node, s.pxEnd, ?_, Or.inl ⟨rfl, List.forall_mem_nil _⟩⟩
      rw [findBlock, if_neg, hp]
      rw [hp]
      exact fun h => h.2 hlast.2
  | cons c l ih =>
      obtain ⟨rounds, rfl⟩ := Nat.exists_eq_succ_of_ne_zero (Nat.ne_zero_of_lt hrounds)
      obtain ⟨hp, hsize, hrest⟩ := hlist
      have hclarge := hblocks.large c List.mem_cons_self
      have hrestend := hrest.pointer_le hblocks.tail
      have hnonzero := hrest.pointer_ne_zero
        (fun d hd => hstarts d (List.mem_cons_of_mem c hd)) hpos
      rw [findBlock, hp, hsize]
      by_cases hshort : c.size < w
      · -- The search goes on to the next block.
        rw [if_pos ⟨hshort, hnonzero⟩]
        have hnodes : ∀ d ∈ l, c.start + 8 ≤ d.start ∨ d.stop ≤ c.start := by
          intro d hd
          have hgap := hsep.lt hd
          unfold Interval.stop at hgap
          omega
        obtain ⟨q, p, hloop, hresult⟩ :=
          ih (Nat.lt_of_succ_lt_succ hrounds) hrest hsep.tail hblocks.tail
            (fun d hd => hstarts d (List.mem_cons_of_mem c hd)) hnodes
        refine ⟨q, p, hloop, ?_⟩
        rcases hresult with ⟨hpend, hall⟩ | ⟨d, hpd, front, back, rfl, hq, hd, hunlinked⟩
        · exact Or.inl ⟨hpend, List.forall_mem_cons.mpr ⟨hshort, hall⟩⟩
        · refine Or.inr ⟨d, hpd, c :: front, back, rfl, hq, hd, ?_⟩
          have hwrites := hunlinked.writes
          have hfar : ∀ x ∈ cell node, x ∉ footprint c.start front := fun x hx hin =>
            not_mem_footprint_tail hblocks hnode hx (hin.imp id fun hin => by
              rw [numbers_append]
              exact Or.inl hin)
          obtain ⟨hnext, hkept⟩ := hwrites.links hfar
          have hfront : Blocks s.pxEnd (c :: front) :=
            ⟨fun e he => hblocks.large e (List.mem_append_left (d :: back) he),
              fun e he => hblocks.inside e (List.mem_append_left (d :: back) he)⟩
          refine ⟨?_, hkept, hwrites.mono (footprint_tail hfront)⟩
          rw [hnext, hp]
          exact ⟨rfl, hunlinked.size.trans hsize, hunlinked.list⟩
      · rw [if_neg fun h => hshort h.1]
        refine ⟨node, c.start, rfl,
          Or.inr ⟨c, rfl, [], l, rfl, hp, Nat.le_of_not_lt hshort, ?_⟩⟩
        have hwrites := writes_setNext s node (s.pxNextFreeBlock c.start)
        refine ⟨?_, size_setNext _ _ _, hwrites.mono Set.subset_union_left⟩
        rw [next_setNext s (by omega)]
        refine hrest.frame hwrites fun d hd x hx hin => ?_
        have hdlarge := hblocks.tail.large d hd
        have hside := hnode d (List.mem_cons_of_mem c hd)
        unfold Interval.stop at hside
        rw [mem_cell] at hx hin
        omega

end TivaAws.Rtos
