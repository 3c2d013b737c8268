import Mathlib.Algebra.GroupWithZero.Nat
import Mathlib.Data.List.Basic
import Mathlib.Data.Set.Basic
import Mathlib.Order.Interval.Set.Basic

/-!
# Sets of numbers as lists of intervals

A list of intervals in ascending order, with a gap between each two, is the only such list for the
numbers in it. `add` adds an interval that is not in the list yet and joins it with the intervals
it touches. `Partition` divides a region into free and used intervals: taking a free one, splitting
a used one and giving one back keep it.
-/

namespace TivaAws.Intervals

/-- The numbers from `start` on, `size` of them. -/
structure Interval where
  start : ℕ
  size : ℕ
  deriving DecidableEq, Repr

namespace Interval

/-- The number after the last one. -/
def stop (b : Interval) : ℕ := b.start + b.size

def numbers (b : Interval) : Set ℕ := Set.Ico b.start b.stop

theorem mem_numbers {b : Interval} {x : ℕ} : x ∈ b.numbers ↔ b.start ≤ x ∧ x < b.stop := Iff.rfl

/-- Two intervals that have no number in common. -/
def Apart (b c : Interval) : Prop := b.stop ≤ c.start ∨ c.stop ≤ b.start

instance (b c : Interval) : Decidable (b.Apart c) := inferInstanceAs (Decidable (_ ∨ _))

theorem Apart.symm {b c : Interval} (h : b.Apart c) : c.Apart b := Or.symm h

theorem apart_iff {b c : Interval} (hb : 0 < b.size) (hc : 0 < c.size) :
    b.Apart c ↔ ∀ x ∈ b.numbers, x ∉ c.numbers := by
  simp only [Apart, mem_numbers, stop]
  constructor
  · intro h x hx hx'
    omega
  · intro h
    have hstart := h b.start
    have hother := h c.start
    omega

end Interval

/-- The numbers of a list of intervals. -/
def numbers (l : List Interval) : Set ℕ := {x | ∃ b ∈ l, x ∈ b.numbers}

/-- How many numbers the intervals of a list have. -/
def total (l : List Interval) : ℕ := (l.map Interval.size).sum

/-- Nonempty intervals in ascending order with a gap between each two. -/
structure Separated (l : List Interval) : Prop where
  nonempty : ∀ b ∈ l, 0 < b.size
  gaps : l.Pairwise fun b c => b.stop < c.start

variable {b c : Interval} {l l' : List Interval} {x w : ℕ}

@[simp] theorem numbers_nil : numbers [] = ∅ := by
  ext x
  simp [numbers]

@[simp] theorem numbers_cons : numbers (c :: l) = c.numbers ∪ numbers l := by
  ext x
  simp [numbers]

theorem numbers_append : numbers (l ++ l') = numbers l ∪ numbers l' := by
  ext x
  simp only [numbers, List.mem_append, or_and_right, exists_or]
  rfl

@[simp] theorem total_nil : total [] = 0 := rfl

@[simp] theorem total_cons : total (c :: l) = c.size + total l := rfl

theorem total_append : total (l ++ l') = total l + total l' := by
  simp [total]

theorem separated_nil : Separated [] := ⟨List.forall_mem_nil _, List.Pairwise.nil⟩

theorem Separated.tail (h : Separated (c :: l)) : Separated l :=
  ⟨fun b hb => h.nonempty b (List.mem_cons_of_mem c hb), h.gaps.of_cons⟩

theorem Separated.head (h : Separated (c :: l)) : 0 < c.size := h.nonempty c List.mem_cons_self

theorem Separated.lt (h : Separated (c :: l)) (hb : b ∈ l) : c.stop < b.start :=
  List.rel_of_pairwise_cons h.gaps hb

theorem separated_cons (hc : 0 < c.size) (hlt : ∀ b ∈ l, c.stop < b.start) (h : Separated l) :
    Separated (c :: l) :=
  ⟨List.forall_mem_cons.mpr ⟨hc, h.nonempty⟩, List.pairwise_cons.mpr ⟨hlt, h.gaps⟩⟩

theorem Separated.apart (h : Separated (c :: l)) (hb : b ∈ l) : c.Apart b :=
  Or.inl (Nat.le_of_lt (h.lt hb))

/-- No number is before the first interval. -/
theorem Separated.start_le (h : Separated (c :: l)) (hx : x ∈ numbers (c :: l)) : c.start ≤ x := by
  obtain ⟨b, hb, hstart, -⟩ := hx
  rcases List.mem_cons.mp hb with rfl | hb
  · exact hstart
  · have hlt := h.lt hb
    unfold Interval.stop at hlt
    omega

/-- The number after the first interval is not in any. -/
theorem Separated.stop_not_mem (h : Separated (c :: l)) : c.stop ∉ numbers (c :: l) := by
  rintro ⟨b, hb, hstart, hstop⟩
  rcases List.mem_cons.mp hb with rfl | hb
  · exact Nat.lt_irrefl _ hstop
  · exact absurd (h.lt hb) (Nat.not_lt.mpr hstart)

/-- The first number. -/
theorem Separated.start_mem (h : Separated (c :: l)) : c.start ∈ numbers (c :: l) :=
  ⟨c, List.mem_cons_self, Nat.le_refl _, Nat.lt_add_of_pos_right h.head⟩

/-- The intervals that follow have the numbers that the first one does not have. -/
theorem Separated.numbers_tail (h : Separated (c :: l)) :
    numbers l = numbers (c :: l) \ c.numbers := by
  ext x
  rw [numbers_cons, Set.mem_sdiff, Set.mem_union, Interval.mem_numbers]
  constructor
  · intro hx
    refine ⟨Or.inr hx, fun hc => ?_⟩
    obtain ⟨b, hb, hstart, -⟩ := hx
    have hlt := h.lt hb
    omega
  · rintro ⟨hc | hx, hnot⟩
    · exact absurd hc hnot
    · exact hx

/-- The intervals of a list come from its numbers. -/
theorem Separated.unique (h : Separated l) (h' : Separated l') (heq : numbers l = numbers l') :
    l = l' := by
  induction l generalizing l' with
  | nil =>
      cases l' with
      | nil => rfl
      | cons c' l' =>
          have hmem := h'.start_mem
          rw [← heq, numbers_nil] at hmem
          exact absurd hmem (Set.notMem_empty _)
  | cons c l ih =>
      have hmem := h.start_mem
      cases l' with
      | nil =>
          rw [heq, numbers_nil] at hmem
          exact absurd hmem (Set.notMem_empty _)
      | cons c' l' =>
          have hmem' := h'.start_mem
          have hstart : c.start = c'.start :=
            Nat.le_antisymm (h.start_le (heq ▸ hmem')) (h'.start_le (heq ▸ hmem))
          -- The first interval ends where the first number is missing.
          have hstop : c.stop = c'.stop := by
            rcases Nat.lt_trichotomy c.stop c'.stop with hlt | hsame | hlt
            · refine absurd ?_ h.stop_not_mem
              rw [heq]
              exact ⟨c', List.mem_cons_self, hstart ▸ Nat.le_add_right _ _, hlt⟩
            · exact hsame
            · refine absurd ?_ h'.stop_not_mem
              rw [← heq]
              exact ⟨c, List.mem_cons_self, hstart ▸ Nat.le_add_right _ _, hlt⟩
          have hc : c = c' := by
            obtain ⟨start, size⟩ := c
            obtain ⟨start', size'⟩ := c'
            obtain rfl : start = start' := hstart
            have hsize : size = size' := Nat.add_left_cancel hstop
            rw [hsize]
          subst hc
          rw [ih h.tail h'.tail (by rw [h.numbers_tail, h'.numbers_tail, heq])]

/-! ## Adding an interval -/

/-- Put an interval before a list, as one with the first interval if that follows at once. -/
def join (b : Interval) : List Interval → List Interval
  | [] => [b]
  | c :: l => if b.stop = c.start then ⟨b.start, b.size + c.size⟩ :: l else b :: c :: l

/-- Add an interval at its place. -/
def add (b : Interval) : List Interval → List Interval
  | [] => [b]
  | c :: l =>
      if b.start ≤ c.start then join b (c :: l)
      else if c.stop = b.start then join ⟨c.start, c.size + b.size⟩ l
      else c :: add b l

theorem numbers_merge (h : b.stop = c.start) :
    (Interval.mk b.start (b.size + c.size)).numbers = b.numbers ∪ c.numbers := by
  ext x
  simp only [Set.mem_union, Interval.mem_numbers, Interval.stop] at h ⊢
  omega

@[simp] theorem numbers_join (b : Interval) (l : List Interval) :
    numbers (join b l) = b.numbers ∪ numbers l := by
  cases l with
  | nil => rw [join, numbers_cons]
  | cons c l =>
      rw [join]
      split_ifs with h
      · rw [numbers_cons, numbers_cons, numbers_merge h, Set.union_assoc]
      · rw [numbers_cons]

@[simp] theorem total_join (b : Interval) (l : List Interval) :
    total (join b l) = b.size + total l := by
  cases l with
  | nil => rfl
  | cons c l =>
      rw [join]
      split_ifs with h
      · rw [total_cons, total_cons, Nat.add_assoc]
      · rw [total_cons]

theorem numbers_add (b : Interval) (l : List Interval) :
    numbers (add b l) = b.numbers ∪ numbers l := by
  induction l with
  | nil => rw [add, numbers_cons]
  | cons c l ih =>
      rw [add]
      split_ifs with hle htouch
      · rw [numbers_join]
      · rw [numbers_join, numbers_cons, numbers_merge htouch, Set.union_comm c.numbers,
          Set.union_assoc]
      · rw [numbers_cons, ih, numbers_cons, Set.union_left_comm]

theorem total_add (b : Interval) (l : List Interval) :
    total (add b l) = b.size + total l := by
  induction l with
  | nil => rfl
  | cons c l ih =>
      rw [add]
      split_ifs with hle htouch
      · rw [total_join]
      · rw [total_join, total_cons]
        show c.size + b.size + total l = b.size + (c.size + total l)
        omega
      · rw [total_cons, ih, total_cons]
        omega

theorem separated_join (hb : 0 < b.size) (hle : ∀ c ∈ l, b.stop ≤ c.start) (h : Separated l) :
    Separated (join b l) := by
  cases l with
  | nil => exact separated_cons hb (List.forall_mem_nil _) separated_nil
  | cons c l =>
      have hc := hle c List.mem_cons_self
      rw [join]
      split_ifs with htouch
      · refine separated_cons (Nat.add_pos_left hb _) (fun d hd => ?_) h.tail
        have hlt := h.lt hd
        unfold Interval.stop at hlt htouch ⊢
        simp only
        omega
      · refine separated_cons hb (fun d hd => ?_) h
        rcases List.mem_cons.mp hd with rfl | hd
        · omega
        · have hlt := h.lt hd
          unfold Interval.stop at hlt hc htouch ⊢
          omega

/-- What starts an interval of a joined list. -/
theorem start_of_mem_join {d : Interval} (hd : d ∈ join b l) :
    d.start = b.start ∨ ∃ c ∈ l, d.start = c.start := by
  cases l with
  | nil => exact Or.inl (congrArg Interval.start (List.mem_singleton.mp hd))
  | cons c l =>
      rw [join] at hd
      split_ifs at hd
      · rcases List.mem_cons.mp hd with rfl | hd
        · exact Or.inl rfl
        · exact Or.inr ⟨d, List.mem_cons_of_mem c hd, rfl⟩
      · rcases List.mem_cons.mp hd with rfl | hd
        · exact Or.inl rfl
        · exact Or.inr ⟨d, hd, rfl⟩

/-- What starts an added interval is in the list or the added interval itself. -/
theorem start_of_mem_add {d : Interval} (hd : d ∈ add b l) :
    d.start = b.start ∨ ∃ c ∈ l, d.start = c.start := by
  induction l with
  | nil => exact Or.inl (congrArg Interval.start (List.mem_singleton.mp hd))
  | cons c l ih =>
      rw [add] at hd
      split_ifs at hd
      · exact start_of_mem_join hd
      · rcases start_of_mem_join hd with hstart | ⟨e, he, hstart⟩
        · exact Or.inr ⟨c, List.mem_cons_self, hstart⟩
        · exact Or.inr ⟨e, List.mem_cons_of_mem c he, hstart⟩
      · rcases List.mem_cons.mp hd with rfl | hd
        · exact Or.inr ⟨d, List.mem_cons_self, rfl⟩
        · rcases ih hd with hstart | ⟨e, he, hstart⟩
          · exact Or.inl hstart
          · exact Or.inr ⟨e, List.mem_cons_of_mem c he, hstart⟩

/-- Adding an interval that is apart from those of the list. -/
theorem Separated.add (h : Separated l) (hb : 0 < b.size) (hapart : ∀ c ∈ l, b.Apart c) :
    Separated (add b l) := by
  induction l with
  | nil => exact separated_cons hb (List.forall_mem_nil _) separated_nil
  | cons c l ih =>
      have hc : b.Apart c := hapart c List.mem_cons_self
      have hc_pos := h.head
      rw [Intervals.add]
      split_ifs with hle htouch
      · refine separated_join hb (fun d hd => ?_) h
        have hstop : b.stop ≤ c.start := by
          unfold Interval.Apart Interval.stop at hc
          unfold Interval.stop
          omega
        rcases List.mem_cons.mp hd with rfl | hd
        · exact hstop
        · have hlt := h.lt hd
          unfold Interval.stop at hlt hstop ⊢
          omega
      · refine separated_join (Nat.add_pos_left hc_pos _) (fun d hd => ?_) h.tail
        have hlt := h.lt hd
        have hd_apart := hapart d (List.mem_cons_of_mem c hd)
        have hd_pos := h.nonempty d (List.mem_cons_of_mem c hd)
        unfold Interval.Apart Interval.stop at hd_apart
        unfold Interval.stop at hlt htouch ⊢
        simp only
        omega
      · refine separated_cons hc_pos (fun d hd => ?_)
          (ih h.tail fun d hd => hapart d (List.mem_cons_of_mem c hd))
        rcases start_of_mem_add hd with hstart | ⟨e, he, hstart⟩
        · unfold Interval.Apart Interval.stop at hc
          unfold Interval.stop at htouch ⊢
          omega
        · rw [hstart]
          exact h.lt he

/-! ## Taking an interval -/

/-- The intervals other than one of a list. -/
theorem Separated.erase {front back : List Interval} (h : Separated (front ++ c :: back)) :
    Separated (front ++ back) :=
  ⟨fun b hb => h.nonempty b (by simp only [List.mem_append, List.mem_cons] at hb ⊢; tauto),
    h.gaps.sublist (List.Sublist.append_left (List.sublist_cons_self c back) front)⟩

/-- An interval of a list is apart from the others. -/
theorem Separated.apart_erase {front back : List Interval} (h : Separated (front ++ c :: back))
    (hb : b ∈ front ++ back) : c.Apart b := by
  have hgaps := List.pairwise_append.mp h.gaps
  rcases List.mem_append.mp hb with hb | hb
  · exact Or.inr (Nat.le_of_lt (hgaps.2.2 b hb c List.mem_cons_self))
  · exact Or.inl (Nat.le_of_lt (List.rel_of_pairwise_cons hgaps.2.1 hb))

/-- Numbers in a row are in one interval. -/
theorem Separated.mem_of_room (h : Separated l) (hw : 0 < w)
    (hroom : ∀ y, x ≤ y → y < x + w → y ∈ numbers l) : ∃ c ∈ l, c.start ≤ x ∧ x + w ≤ c.stop := by
  obtain ⟨c, hc, hstart, hstop⟩ := hroom x (Nat.le_refl x) (Nat.lt_add_of_pos_right hw)
  refine ⟨c, hc, hstart, Nat.le_of_not_lt fun hlt => ?_⟩
  -- The number after the interval would be in another one.
  obtain ⟨d, hd, hdstart, hdstop⟩ := hroom c.stop (Nat.le_of_lt hstop) hlt
  obtain ⟨front, back, rfl⟩ := List.append_of_mem hc
  rcases List.mem_append.mp hd with hd | hd
  · have hgap := (List.pairwise_append.mp h.gaps).2.2 d hd c List.mem_cons_self
    unfold Interval.stop at hgap hdstop hdstart
    omega
  · rcases List.mem_cons.mp hd with rfl | hd
    · exact Nat.lt_irrefl _ hdstop
    · have hgap := List.rel_of_pairwise_cons (List.pairwise_append.mp h.gaps).2.1 hd
      omega

/-! ## Regions -/

/-- A region is divided into free intervals, in order, and used ones. -/
structure Partition (region : Interval) (free used : List Interval) : Prop where
  separated : Separated free
  nonempty : ∀ b ∈ used, 0 < b.size
  apart : used.Pairwise Interval.Apart
  cover : ∀ x, x ∈ region.numbers ↔ x ∈ numbers free ∨ x ∈ numbers used
  disjoint : ∀ x ∈ numbers free, x ∉ numbers used
  total : total free + total used = region.size

namespace Partition

variable {region : Interval} {free used front back : List Interval}

theorem whole (h : 0 < region.size) : Partition region [region] [] where
  separated := separated_cons h (List.forall_mem_nil _) separated_nil
  nonempty := List.forall_mem_nil _
  apart := List.Pairwise.nil
  cover x := by simp
  disjoint x _ := by simp
  total := rfl

/-- A nonempty interval of numbers of the region lies within its bounds. -/
theorem within (hc : 0 < c.size) (hsub : ∀ x ∈ c.numbers, x ∈ region.numbers) :
    region.start ≤ c.start ∧ c.stop ≤ region.stop := by
  have hfirst := hsub c.start ⟨Nat.le_refl _, Nat.lt_add_of_pos_right hc⟩
  have hlast := hsub (c.stop - 1) ⟨by unfold Interval.stop; omega, by unfold Interval.stop; omega⟩
  have hlast := hlast.2
  exact ⟨hfirst.1, by omega⟩

theorem within_used (h : Partition region free used) (hc : c ∈ used) :
    region.start ≤ c.start ∧ c.stop ≤ region.stop :=
  within (h.nonempty c hc) fun x hx => (h.cover x).mpr (Or.inr ⟨c, hc, hx⟩)

theorem apart_of_used (h : Partition region free used) (hc : c ∈ free) (hb : b ∈ used) :
    b.Apart c :=
  (Interval.apart_iff (h.nonempty b hb) (h.separated.nonempty c hc)).mpr fun x hx hx' =>
    h.disjoint x ⟨c, hc, hx'⟩ ⟨b, hb, hx⟩

/-- A free interval is used. -/
theorem take (h : Partition region (front ++ c :: back) used) :
    Partition region (front ++ back) (c :: used) := by
  have hc : c ∈ front ++ c :: back := List.mem_append_right front List.mem_cons_self
  have hcpos := h.separated.nonempty c hc
  have hcount := h.total
  refine ⟨h.separated.erase, List.forall_mem_cons.mpr ⟨hcpos, h.nonempty⟩,
    List.pairwise_cons.mpr ⟨fun b hb => (h.apart_of_used hc hb).symm, h.apart⟩, fun x => ?_,
    fun x hx => ?_, ?_⟩
  · rw [h.cover, numbers_append, numbers_append, numbers_cons, numbers_cons]
    simp only [Set.mem_union]
    tauto
  · rw [numbers_cons]
    rintro (hxc | hxu)
    · obtain ⟨b, hb, hxb⟩ := hx
      have hbpos := h.separated.erase.nonempty b hb
      exact (Interval.apart_iff hcpos hbpos).mp (h.separated.apart_erase hb) x hxc hxb
    · refine h.disjoint x ?_ hxu
      rw [numbers_append, numbers_cons]
      rw [numbers_append] at hx
      exact hx.imp id Or.inr
  · rw [total_append, total_cons] at hcount
    rw [total_append, total_cons]
    omega

/-- A used interval is two. -/
theorem split (h : Partition region free (c :: used)) (hw : 0 < w) (hlt : w < c.size) :
    Partition region free (⟨c.start, w⟩ :: ⟨c.start + w, c.size - w⟩ :: used) := by
  have hnumbers : ∀ x, x ∈ numbers (⟨c.start, w⟩ :: ⟨c.start + w, c.size - w⟩ :: used) ↔
      x ∈ numbers (c :: used) := by
    intro x
    simp only [numbers_cons, Set.mem_union, Interval.mem_numbers, Interval.stop]
    have hcover : c.start ≤ x ∧ x < c.start + w ∨
        c.start + w ≤ x ∧ x < c.start + w + (c.size - w) ↔
          c.start ≤ x ∧ x < c.start + c.size := by omega
    rw [← or_assoc, hcover]
  have hcount := h.total
  have hapart := List.pairwise_cons.mp h.apart
  refine ⟨h.separated, ?_, ?_, fun x => ?_, fun x hx => ?_, ?_⟩
  · exact List.forall_mem_cons.mpr ⟨hw, List.forall_mem_cons.mpr
      ⟨Nat.sub_pos_of_lt hlt, (List.forall_mem_cons.mp h.nonempty).2⟩⟩
  · refine List.pairwise_cons.mpr ⟨List.forall_mem_cons.mpr ⟨Or.inl (Nat.le_refl _), ?_⟩,
      List.pairwise_cons.mpr ⟨?_, hapart.2⟩⟩
    · intro b hb
      have hcb := hapart.1 b hb
      unfold Interval.Apart Interval.stop at hcb ⊢
      simp only
      omega
    · intro b hb
      have hcb := hapart.1 b hb
      unfold Interval.Apart Interval.stop at hcb ⊢
      simp only
      omega
  · rw [h.cover, hnumbers]
  · rw [hnumbers]
    exact h.disjoint x hx
  · simp only [total_cons] at hcount ⊢
    omega

/-- A used interval is free again. -/
theorem give (h : Partition region free (front ++ b :: back)) :
    Partition region (add b free) (front ++ back) := by
  have hb : b ∈ front ++ b :: back := List.mem_append_right front List.mem_cons_self
  have hcount := h.total
  have hpairs := List.pairwise_append.mp h.apart
  have hothers : ∀ d ∈ front ++ back, b.Apart d := by
    intro d hd
    rcases List.mem_append.mp hd with hd | hd
    · exact (hpairs.2.2 d hd b List.mem_cons_self).symm
    · exact List.rel_of_pairwise_cons hpairs.2.1 hd
  have hkeep : ∀ d ∈ front ++ back, d ∈ front ++ b :: back := by
    intro d hd
    simp only [List.mem_append, List.mem_cons] at hd ⊢
    tauto
  refine ⟨h.separated.add (h.nonempty b hb) fun c hc => h.apart_of_used hc hb,
    fun d hd => h.nonempty d (hkeep d hd),
    h.apart.sublist (List.Sublist.append_left (List.sublist_cons_self b back) front), fun x => ?_,
    fun x hx => ?_, ?_⟩
  · rw [h.cover, numbers_add, numbers_append, numbers_append, numbers_cons]
    simp only [Set.mem_union]
    tauto
  · rw [numbers_add] at hx
    rintro ⟨d, hd, hxd⟩
    rcases hx with hxb | hxf
    · exact (Interval.apart_iff (h.nonempty b hb) (h.nonempty d (hkeep d hd))).mp (hothers d hd) x
        hxb hxd
    · exact h.disjoint x hxf ⟨d, hkeep d hd, hxd⟩
  · rw [total_append, total_cons] at hcount
    rw [total_add, total_append]
    omega

/-- Without used intervals the region is one free interval. -/
theorem eq_whole (h : Partition region free []) (hregion : 0 < region.size) : free = [region] := by
  refine h.separated.unique (whole hregion).separated ?_
  ext x
  have hcover := h.cover x
  simp only [numbers_nil, Set.mem_empty_iff_false, or_false] at hcover
  rw [numbers_cons, numbers_nil, Set.union_empty, hcover]

/-- A free interval is long enough just when there is room between the used ones. -/
theorem exists_room (h : Partition region free used) (hw : 0 < w) :
    (∃ c ∈ free, w ≤ c.size) ↔
      ∃ x, ∀ y, x ≤ y → y < x + w → y ∈ region.numbers ∧ y ∉ numbers used := by
  constructor
  · rintro ⟨c, hc, hlong⟩
    refine ⟨c.start, fun y hlow hhigh => ?_⟩
    have hy : y ∈ numbers free := ⟨c, hc, hlow, by unfold Interval.stop; omega⟩
    exact ⟨(h.cover y).mpr (Or.inl hy), h.disjoint y hy⟩
  · rintro ⟨x, hroom⟩
    obtain ⟨c, hc, hlow, hhigh⟩ := h.separated.mem_of_room hw fun y hlow hhigh =>
      ((h.cover y).mp (hroom y hlow hhigh).1).resolve_right (hroom y hlow hhigh).2
    refine ⟨c, hc, ?_⟩
    unfold Interval.stop at hhigh
    omega

end Partition

/-! ## Alignment -/

/-- Intervals that start and end at multiples. -/
def Aligned (n : ℕ) (l : List Interval) : Prop := ∀ c ∈ l, n ∣ c.start ∧ n ∣ c.size

theorem Aligned.of_cons {n : ℕ} (h : Aligned n (c :: l)) : Aligned n l :=
  fun d hd => h d (List.mem_cons_of_mem c hd)

theorem Aligned.join {n : ℕ} (h : Aligned n (b :: l)) : Aligned n (join b l) := by
  cases l with
  | nil => exact h
  | cons c l =>
      have hb := h b List.mem_cons_self
      have hc := h.of_cons c List.mem_cons_self
      rw [Intervals.join]
      split_ifs
      · exact List.forall_mem_cons.mpr ⟨⟨hb.1, Nat.dvd_add hb.2 hc.2⟩, h.of_cons.of_cons⟩
      · exact h

theorem Aligned.add {n : ℕ} (h : Aligned n (b :: l)) : Aligned n (add b l) := by
  induction l with
  | nil => exact h
  | cons c l ih =>
      have hb := h b List.mem_cons_self
      have hc := h.of_cons c List.mem_cons_self
      have hl := h.of_cons.of_cons
      rw [Intervals.add]
      split_ifs
      · exact h.join
      · exact Aligned.join (List.forall_mem_cons.mpr ⟨⟨hc.1, Nat.dvd_add hc.2 hb.2⟩, hl⟩)
      · exact List.forall_mem_cons.mpr ⟨hc, ih (List.forall_mem_cons.mpr ⟨hb, hl⟩)⟩

/-- Nonempty intervals are not more than their numbers. -/
theorem Separated.length_le (h : Separated l) : l.length ≤ total l := by
  induction l with
  | nil => exact Nat.le_refl 0
  | cons c l ih =>
      have hrest := ih h.tail
      have hc := h.head
      rw [List.length_cons, total_cons]
      omega

theorem size_le_total (hc : c ∈ l) : c.size ≤ total l := by
  obtain ⟨front, back, rfl⟩ := List.append_of_mem hc
  rw [total_append, total_cons]
  omega

end TivaAws.Intervals
