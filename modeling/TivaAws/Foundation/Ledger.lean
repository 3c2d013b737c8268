import TivaAws.Foundation.Labelled
import Mathlib.Data.List.Nodup
import Mathlib.Data.List.Perm.Basic

/-!
# A ledger of resources

Resources come from a pool. A component obtains them, lends some of them to its user and releases
them back to the pool. The ledger says who has what: `held` is with the component and `lent` with
the user. A pool is honest if it hands out only what is not outstanding; a release is lawful if it
gives back what is outstanding. `Balanced` says that the component holds exactly the resources at
given places and that nothing is outstanding twice; each move keeps the books balanced.
-/

namespace TivaAws

open Labelled

variable {α : Type*}

/-- What happens to a resource. -/
inductive Move (α : Type*) where
  | obtain (x : α)
  | lend (x : α)
  | release (x : α)
  deriving DecidableEq

/-- Who has the resources that are outside the pool. -/
structure Ledger (α : Type*) where
  held : List α
  lent : List α

namespace Ledger

/-- Nothing is outside the pool. -/
def empty : Ledger α := ⟨[], []⟩

/-- Everything outside the pool. -/
def outstanding (l : Ledger α) : List α := l.held ++ l.lent

/-- A pool hands out only what is not outstanding. -/
def Honest (l : Ledger α) : Move α → Prop
  | .obtain x => x ∉ l.outstanding
  | _ => True

/-- Only what is held is lent, and only what is outstanding is released. -/
def Lawful (l : Ledger α) : Move α → Prop
  | .obtain _ => True
  | .lend x => x ∈ l.held
  | .release x => x ∈ l.outstanding

/-- The held resources are those at the given places, and nothing is outstanding twice. -/
structure Balanced (l : Ledger α) (places : List α) : Prop where
  held : l.held.Perm places
  nodup : l.outstanding.Nodup

variable {l : Ledger α} {x : α} {places : List α}

theorem balanced_empty : Balanced (empty : Ledger α) [] := ⟨.refl _, .nil⟩

theorem Balanced.perm {others : List α} (h : Balanced l places) (hperm : places.Perm others) :
    Balanced l others :=
  ⟨h.held.trans hperm, h.nodup⟩

/-- No resource is at two places. -/
theorem Balanced.places_nodup (h : Balanced l places) : places.Nodup :=
  h.held.nodup_iff.mp (List.nodup_append.mp h.nodup).1

theorem Balanced.not_mem_of_lent (h : Balanced l places) (hx : x ∈ l.lent) : x ∉ places := by
  intro hplace
  have hheld := h.held.mem_iff.mpr hplace
  exact (List.nodup_append.mp h.nodup).2.2 x hheld x hx rfl

/-! ## Moves -/

variable [DecidableEq α]

instance (l : Ledger α) : (move : Move α) → Decidable (Honest l move)
  | .obtain x => inferInstanceAs (Decidable (x ∉ l.outstanding))
  | .lend _ => isTrue trivial
  | .release _ => isTrue trivial

/-- Record a move. -/
def record (l : Ledger α) : Move α → Ledger α
  | .obtain x => { l with held := x :: l.held }
  | .lend x => { held := l.held.erase x, lent := x :: l.lent }
  | .release x =>
      if x ∈ l.held then { l with held := l.held.erase x }
      else { l with lent := l.lent.erase x }

theorem Balanced.obtain (h : Balanced l places) (hx : x ∉ l.outstanding) :
    Balanced (l.record (.obtain x)) (x :: places) := by
  refine ⟨h.held.cons x, ?_⟩
  show (x :: l.outstanding).Nodup
  exact List.nodup_cons.mpr ⟨hx, h.nodup⟩

theorem Balanced.lend (h : Balanced l (x :: places)) :
    Lawful l (.lend x) ∧ Balanced (l.record (.lend x)) places := by
  have hmem : x ∈ l.held := h.held.mem_iff.mpr List.mem_cons_self
  have hsplit := List.perm_cons_erase hmem
  refine ⟨hmem, ?_, ?_⟩
  · exact (hsplit.symm.trans h.held).cons_inv
  · have hperm : l.outstanding.Perm (l.held.erase x ++ x :: l.lent) :=
      (hsplit.append_right l.lent).trans List.perm_middle.symm
    exact hperm.nodup_iff.mp h.nodup

theorem Balanced.release (h : Balanced l (x :: places)) :
    Lawful l (.release x) ∧ Balanced (l.record (.release x)) places := by
  have hmem : x ∈ l.held := h.held.mem_iff.mpr List.mem_cons_self
  have hsplit := List.perm_cons_erase hmem
  refine ⟨List.mem_append_left _ hmem, ?_⟩
  simp only [record, if_pos hmem]
  refine ⟨(hsplit.symm.trans h.held).cons_inv, ?_⟩
  exact h.nodup.sublist (List.erase_sublist.append_right l.lent)

/-- What the user releases is not at any place. -/
theorem Balanced.release_lent (h : Balanced l places) (hx : x ∈ l.lent) :
    Lawful l (.release x) ∧ Balanced (l.record (.release x)) places := by
  have hplace := h.not_mem_of_lent hx
  have hheld : x ∉ l.held := fun hmem => hplace (h.held.mem_iff.mp hmem)
  refine ⟨List.mem_append_right _ hx, ?_⟩
  simp only [record, if_neg hheld]
  exact ⟨h.held, h.nodup.sublist (List.erase_sublist.append_left l.held)⟩

/-- Releasing the resources of several places one after the other. -/
theorem Balanced.release_all {released : List α} (h : Balanced l (released ++ places)) :
    Guarded record Lawful l (released.map .release) ∧
      Balanced ((released.map .release).foldl record l) places := by
  induction released generalizing l with
  | nil => exact ⟨trivial, h⟩
  | cons x rest ih =>
      obtain ⟨hlawful, hbalanced⟩ := h.release
      obtain ⟨hrest, hfinal⟩ := ih hbalanced
      exact ⟨⟨hlawful, hrest⟩, hfinal⟩

/-! ## Conservation -/

/-- Honest and lawful moves never put a resource outside the pool twice. -/
theorem nodup_outstanding {moves : List (Move α)} (hhonest : Guarded record Honest l moves)
    (hlawful : Guarded record Lawful l moves) (hnodup : l.outstanding.Nodup) :
    (moves.foldl record l).outstanding.Nodup := by
  induction moves generalizing l with
  | nil => exact hnodup
  | cons move rest ih =>
      have hbalanced : Balanced l l.held := ⟨.refl _, hnodup⟩
      refine ih hhonest.2 hlawful.2 ?_
      cases move with
      | obtain x => exact (hbalanced.obtain hhonest.1).nodup
      | lend x => exact (hbalanced.perm (List.perm_cons_erase hlawful.1)).lend.2.nodup
      | release x =>
          rcases List.mem_append.mp hlawful.1 with hheld | hlent
          · exact (hbalanced.perm (List.perm_cons_erase hheld)).release.2.nodup
          · exact (hbalanced.release_lent hlent).2.nodup

/-- Under lawful moves a resource is outstanding as often as it has been obtained and not yet
released. -/
theorem count_outstanding {moves : List (Move α)} (h : Guarded record Lawful l moves) (x : α) :
    (moves.foldl record l).outstanding.count x + moves.count (.release x) =
      l.outstanding.count x + moves.count (.obtain x) := by
  induction moves generalizing l with
  | nil => rfl
  | cons move rest ih =>
      obtain ⟨hlawful, hrest⟩ := h
      have hstep := ih hrest
      rw [List.foldl_cons]
      cases move with
      | obtain y =>
          simp only [record, outstanding, List.cons_append, List.count_cons] at hstep ⊢
          by_cases hxy : y = x
          · subst hxy
            simp at hstep ⊢
            omega
          · simp [hxy] at hstep ⊢
            omega
      | lend y =>
          have hperm : (l.record (.lend y)).outstanding.Perm l.outstanding :=
            List.perm_middle.trans ((List.perm_cons_erase hlawful).symm.append_right l.lent)
          rw [hperm.count_eq] at hstep
          simpa [List.count_cons] using hstep
      | release y =>
          have hperm : l.outstanding.Perm (y :: (l.record (.release y)).outstanding) := by
            by_cases hheld : y ∈ l.held
            · simp only [record, if_pos hheld]
              exact (List.perm_cons_erase hheld).append_right l.lent
            · have hlent : y ∈ l.lent := (List.mem_append.mp hlawful).resolve_left hheld
              simp only [record, if_neg hheld]
              exact ((List.perm_cons_erase hlent).append_left l.held).trans List.perm_middle
          rw [hperm.count_eq]
          simp only [List.count_cons] at hstep ⊢
          by_cases hxy : y = x
          · subst hxy
            simp at hstep ⊢
            omega
          · simp [hxy] at hstep ⊢
            omega

end Ledger

end TivaAws
