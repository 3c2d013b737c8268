import Mathlib.Algebra.Group.Nat.Defs
import Mathlib.Data.List.FinRange

/-!
# Tables of fixed size

A table is a `Vector`. `firstIndex` is the loop that runs over a table from the start and stops
at the first entry with a property, and `lookup` is the entry it finds. When at most one entry has
the property, setting an entry changes what is looked up as in a finite map.
-/

namespace TivaAws.Table

open scoped List

variable {α : Type*} {n : Nat}

/-- The first index whose entry satisfies `p`. -/
def firstIndex (p : α → Bool) (table : Vector α n) : Option (Fin n) :=
  (List.finRange n).find? fun i => p table[i]

variable {p : α → Bool} {table : Vector α n}

theorem firstIndex_satisfies {i : Fin n} (h : firstIndex p table = some i) :
    p table[i] = true := by
  simpa using List.find?_some h

theorem firstIndex_eq_none_iff :
    firstIndex p table = none ↔ ∀ i : Fin n, p table[i] = false := by
  simp [firstIndex, List.find?_eq_none]

/-- Only whether the entries satisfy `p` matters. -/
theorem firstIndex_congr {table' : Vector α n} (h : ∀ i : Fin n, p table[i] = p table'[i]) :
    firstIndex p table = firstIndex p table' := by
  simp only [firstIndex, h]

/-- A table with a matching entry has a first one. -/
theorem firstIndex_isSome {i : Fin n} (h : p table[i] = true) :
    ∃ j, firstIndex p table = some j := by
  cases hfirst : firstIndex p table with
  | none =>
      have hnot := firstIndex_eq_none_iff.mp hfirst i
      rw [hnot] at h
      exact absurd h Bool.false_ne_true
  | some j => exact ⟨j, rfl⟩

/-! ## Looking up an entry -/

/-- The first entry that satisfies `p`. -/
def lookup (p : α → Bool) (table : Vector α n) : Option α :=
  (firstIndex p table).map fun i => table[i]

theorem lookup_eq_none_iff : lookup p table = none ↔ ∀ i : Fin n, p table[i] = false := by
  rw [lookup, Option.map_eq_none_iff, firstIndex_eq_none_iff]

/-- The only entry with the property is looked up. -/
theorem lookup_eq_some {i : Fin n} (h : p table[i] = true)
    (hunique : ∀ j : Fin n, p table[j] = true → j = i) : lookup p table = some table[i] := by
  obtain ⟨j, hj⟩ := firstIndex_isSome h
  rw [lookup, hj, hunique j (firstIndex_satisfies hj)]
  rfl

theorem getElem_set (i j : Fin n) (a : α) :
    (table.set i a)[j] = if j = i then a else table[j] := by
  rw [Fin.getElem_fin, Fin.getElem_fin, Vector.getElem_set]
  by_cases h : j = i
  · rw [if_pos h, if_pos (by rw [h])]
  · rw [if_neg h, if_neg fun heq => h (Fin.ext heq.symm)]

/-- Setting an entry without the property to another one without it changes no lookup. -/
theorem lookup_set_of_not {i : Fin n} {a : α} (hold : p table[i] = false) (hnew : p a = false) :
    lookup p (table.set i a) = lookup p table := by
  have hsame : ∀ j : Fin n, p (table.set i a)[j] = p table[j] := by
    intro j
    rw [getElem_set]
    split_ifs with h
    · rw [hnew, h, hold]
    · rfl
  have hindex : firstIndex p (table.set i a) = firstIndex p table := by
    simp only [firstIndex, hsame]
  rw [lookup, lookup, hindex]
  cases hfirst : firstIndex p table with
  | none => rfl
  | some j =>
      have hne : j ≠ i := by
        rintro rfl
        rw [firstIndex_satisfies hfirst] at hold
        exact absurd hold (by simp)
      rw [Option.map_some, Option.map_some, getElem_set, if_neg hne]

/-- Setting an entry to the only one with the property. -/
theorem lookup_set_self {i : Fin n} {a : α} (hnew : p a = true)
    (hother : ∀ j : Fin n, p table[j] = false) : lookup p (table.set i a) = some a := by
  have hset : (table.set i a)[i] = a := by rw [getElem_set, if_pos rfl]
  have hfound := lookup_eq_some (p := p) (i := i)
    (by rw [hset]; exact hnew)
    (by
      intro j hj
      rw [getElem_set] at hj
      by_contra hne
      rw [if_neg hne, hother j] at hj
      exact Bool.false_ne_true hj)
  rw [hset] at hfound
  exact hfound

/-- Taking the property from the only entry that has it. -/
theorem lookup_set_none {i : Fin n} {a : α} (hnew : p a = false)
    (hunique : ∀ j : Fin n, p table[j] = true → j = i) : lookup p (table.set i a) = none := by
  rw [lookup_eq_none_iff]
  intro j
  rw [getElem_set]
  split_ifs with h
  · exact hnew
  · cases hp : p table[j] with
    | false => rfl
    | true => exact absurd (hunique j hp) h

/-- A table that is not full of entries with a property has one without it. -/
theorem firstIndex_not_isSome (h : table.countP p < n) :
    ∃ i, firstIndex (fun a => !p a) table = some i := by
  cases hfirst : firstIndex (fun a => !p a) table with
  | some i => exact ⟨i, rfl⟩
  | none =>
      have hall : ∀ a ∈ table, p a := by
        intro a hmem
        obtain ⟨i, hi, rfl⟩ := Vector.mem_iff_getElem.mp hmem
        simpa using firstIndex_eq_none_iff.mp hfirst ⟨i, hi⟩
      exact absurd (Vector.countP_eq_size.mpr hall) (Nat.ne_of_lt h)

/-! ## What is in the entries -/

/-- Setting an entry exchanges what is in it. -/
theorem filterMap_set_perm {β : Type*} (f : α → Option β) (table : Vector α n) (i : Fin n) (a : α) :
    ((f table[i]).toList ++ (table.set i a).toList.filterMap f).Perm
      ((f a).toList ++ table.toList.filterMap f) := by
  have hi : (i : Nat) < table.toList.length := by simp
  obtain ⟨front, back, hold, hnew⟩ : ∃ front back, table.toList = front ++ table[i] :: back ∧
      (table.set i a).toList = front ++ a :: back := by
    refine ⟨table.toList.take i, table.toList.drop (i + 1), ?_, ?_⟩
    · rw [Fin.getElem_fin, ← Vector.getElem_toList hi, List.getElem_cons_drop,
        List.take_append_drop]
    · rw [Vector.toList_set, List.set_eq_take_append_cons_drop, if_pos hi]
  have hsplit : ∀ b : α, (front ++ b :: back).filterMap f =
      front.filterMap f ++ ((f b).toList ++ back.filterMap f) := by
    intro b
    rw [List.filterMap_append]
    cases hb : f b with
    | none => simp [hb]
    | some value => simp [hb]
  rw [hnew, hold, hsplit, hsplit]
  calc (f table[i]).toList ++ (front.filterMap f ++ ((f a).toList ++ back.filterMap f))
      _ ~ (f table[i]).toList ++ ((f a).toList ++ (front.filterMap f ++ back.filterMap f)) :=
        (List.perm_append_comm_assoc _ _ _).append_left _
      _ ~ (f a).toList ++ ((f table[i]).toList ++ (front.filterMap f ++ back.filterMap f)) :=
        List.perm_append_comm_assoc _ _ _
      _ ~ (f a).toList ++ (front.filterMap f ++ ((f table[i]).toList ++ back.filterMap f)) :=
        (List.perm_append_comm_assoc _ _ _).append_left _

end TivaAws.Table
