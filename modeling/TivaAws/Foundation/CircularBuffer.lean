import Mathlib.Data.Vector.Defs
import Mathlib.Data.List.Basic

/-!
# Circular buffers

A buffer of fixed size that is written one cell after the other and starts over at its end. Fewer
writes than the buffer has cells leave the cell written before them as it is
(`pushAll_keeps`); as many writes as it has cells leave nothing of what was there
(`pushAll_forgets`).
-/

namespace TivaAws

/-- The cells of a circular buffer and the one to be written next. -/
structure CircularBuffer (α : Type*) (n : Nat) where
  cells : Vector α n
  next : Fin n

namespace CircularBuffer

variable {α : Type*} {n : Nat}

/-- The cell `count` cells after another one. -/
def ahead (cell : Fin n) (count : Nat) : Fin n :=
  ⟨(cell + count) % n, Nat.mod_lt _ (Nat.zero_lt_of_lt cell.isLt)⟩

/-- Write the next cell. -/
def push (a : α) (b : CircularBuffer α n) : CircularBuffer α n where
  cells := b.cells.set b.next a
  next := ahead b.next 1

/-- Write the next cells, one after the other. -/
def pushAll (as : List α) (b : CircularBuffer α n) : CircularBuffer α n :=
  as.foldl (fun b a => b.push a) b

variable {b b' : CircularBuffer α n} {a : α} {as : List α}

@[simp] theorem pushAll_nil : pushAll [] b = b := rfl

@[simp] theorem pushAll_cons : pushAll (a :: as) b = pushAll as (push a b) := rfl

@[simp] theorem ahead_zero (cell : Fin n) : ahead cell 0 = cell :=
  Fin.ext (Nat.mod_eq_of_lt cell.isLt)

@[simp] theorem ahead_ahead (cell : Fin n) (i j : Nat) :
    ahead (ahead cell i) j = ahead cell (i + j) := by
  refine Fin.ext ?_
  show ((cell + i) % n + j) % n = (cell + (i + j)) % n
  rw [Nat.mod_add_mod, Nat.add_assoc]

/-- Fewer steps than the buffer has cells do not come back. -/
theorem ahead_ne {cell : Fin n} {i : Nat} (hpos : 0 < i) (hlt : i < n) : ahead cell i ≠ cell := by
  intro h
  have hval : (cell + i) % n = cell := congrArg Fin.val h
  have hcell := cell.isLt
  by_cases hwrap : cell + i < n
  · rw [Nat.mod_eq_of_lt hwrap] at hval
    omega
  · rw [Nat.mod_eq_sub_mod (by omega), Nat.mod_eq_of_lt (by omega)] at hval
    omega

/-- Every cell is ahead of every other one. -/
theorem exists_ahead (cell other : Fin n) : ∃ i < n, other = ahead cell i := by
  have hcell := cell.isLt
  have hother := other.isLt
  by_cases h : cell.val ≤ other.val
  · refine ⟨other - cell, by omega, Fin.ext ?_⟩
    show other.val = (cell + (other - cell)) % n
    rw [Nat.add_sub_cancel' h, Nat.mod_eq_of_lt hother]
  · refine ⟨other + n - cell, by omega, Fin.ext ?_⟩
    show other.val = (cell + (other + n - cell)) % n
    rw [Nat.add_sub_cancel' (by omega), Nat.add_mod_right, Nat.mod_eq_of_lt hother]

theorem pushAll_next (as : List α) (b : CircularBuffer α n) :
    (pushAll as b).next = ahead b.next as.length := by
  induction as generalizing b with
  | nil => exact (ahead_zero _).symm
  | cons a as ih =>
      rw [pushAll_cons, ih]
      show ahead (ahead b.next 1) as.length = _
      rw [ahead_ahead, List.length_cons, Nat.add_comm]

theorem push_cells_self : (push a b).cells.get b.next = a := by
  show (b.cells.set b.next a)[b.next.val] = a
  exact Vector.getElem_set_self _

theorem push_cells_of_ne {cell : Fin n} (h : cell ≠ b.next) :
    (push a b).cells.get cell = b.cells.get cell := by
  have hne : b.next.val ≠ cell.val := fun heq => h (Fin.ext heq.symm)
  show (b.cells.set b.next a)[cell.val] = b.cells[cell.val]
  exact Vector.getElem_set_ne _ cell.isLt hne

/-- A cell that the writes do not reach is left as it is. -/
theorem pushAll_cells_ahead {i : Nat} (as : List α) (b : CircularBuffer α n)
    (hreach : as.length ≤ i) (hlt : i < n) :
    (pushAll as b).cells.get (ahead b.next i) = b.cells.get (ahead b.next i) := by
  induction as generalizing b i with
  | nil => rfl
  | cons a as ih =>
      rw [List.length_cons] at hreach
      have hcell : ahead b.next i = ahead (push a b).next (i - 1) := by
        show _ = ahead (ahead b.next 1) (i - 1)
        rw [ahead_ahead, Nat.add_sub_cancel' (by omega)]
      have hother : ahead b.next i ≠ b.next := ahead_ne (by omega) hlt
      have hstep := push_cells_of_ne (a := a) hother
      rw [pushAll_cons, ← hstep, hcell]
      exact ih (push a b) (by omega) (by omega)

/-- Fewer writes than there are cells leave the cell written before them as it is. -/
theorem pushAll_keeps (as : List α) (h : as.length < n) :
    (pushAll as (push a b)).cells.get b.next = a := by
  have hcell : b.next = ahead (push a b).next (n - 1) := by
    show _ = ahead (ahead b.next 1) (n - 1)
    have hn := b.next.isLt
    rw [ahead_ahead, Nat.add_sub_cancel' (by omega)]
    refine Fin.ext ?_
    show b.next.val = (b.next + n) % n
    rw [Nat.add_mod_right, Nat.mod_eq_of_lt hn]
  have hkept := pushAll_cells_ahead as (push a b) (i := n - 1) (by omega) (by omega)
  rw [← hcell, push_cells_self] at hkept
  exact hkept

/-- The buffers go on at the same cell, and are equal but for the next `count` cells. -/
def AgreeBut (count : Nat) (b b' : CircularBuffer α n) : Prop :=
  b.next = b'.next ∧ ∀ cell : Fin n, (∃ i < count, cell = ahead b.next i) ∨
    b.cells.get cell = b'.cells.get cell

theorem agree_but_of_next (h : b.next = b'.next) : AgreeBut n b b' :=
  ⟨h, fun cell => Or.inl (exists_ahead b.next cell)⟩

/-- A write into both leaves one cell less in which they may differ. -/
theorem AgreeBut.push {count : Nat} (h : AgreeBut count b b') (a : α) :
    AgreeBut (count - 1) (push a b) (push a b') := by
  obtain ⟨hnext, hcells⟩ := h
  refine ⟨congrArg (ahead · 1) hnext, ?_⟩
  intro cell
  by_cases hself : cell = b.next
  · right
    rw [hself, push_cells_self]
    rw [hnext, push_cells_self]
  · rcases hcells cell with ⟨i, hi, hcell⟩ | hsame
    · left
      have hpos : i ≠ 0 := by
        rintro rfl
        exact hself (hcell.trans (ahead_zero _))
      refine ⟨i - 1, by omega, ?_⟩
      show cell = ahead (ahead b.next 1) (i - 1)
      rw [ahead_ahead, Nat.add_sub_cancel' (by omega)]
      exact hcell
    · right
      rw [push_cells_of_ne hself, push_cells_of_ne (hnext ▸ hself), hsame]

theorem AgreeBut.pushAll {count : Nat} (h : AgreeBut count b b') (as : List α) :
    AgreeBut (count - as.length) (pushAll as b) (pushAll as b') := by
  induction as generalizing b b' count with
  | nil => exact h
  | cons a as ih =>
      have hstep := ih (h.push a)
      rw [List.length_cons, Nat.add_comm, ← Nat.sub_sub]
      exact hstep

/-- As many writes as there are cells leave nothing of what was there. -/
theorem pushAll_forgets (as : List α) (h : n ≤ as.length) (hnext : b.next = b'.next) :
    pushAll as b = pushAll as b' := by
  obtain ⟨hnext', hcells⟩ := (agree_but_of_next hnext).pushAll as
  rw [Nat.sub_eq_zero_of_le h] at hcells
  have hsame : (pushAll as b).cells = (pushAll as b').cells := by
    refine Vector.ext ?_
    intro i hi
    exact (hcells ⟨i, hi⟩).resolve_left fun ⟨_, hnone, _⟩ => absurd hnone (Nat.not_lt_zero _)
  cases hb : pushAll as b
  cases hb' : pushAll as b'
  rw [hb, hb'] at hsame hnext'
  exact congr (congrArg _ hsame) hnext'

end CircularBuffer

end TivaAws
